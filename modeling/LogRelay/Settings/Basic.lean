import LogRelay.Batcher
import LogRelay.Link.Basic
import LogRelay.Settings.Fault

/-!
# Settings

What the whole program is told, and what each of its parts is told in turn.

* `Settings.validate`: the first thing wrong with settings;
* `Settings.link`, `Settings.batcher`, `Settings.keys`: what the parts are told;
* `Settings.plan`: what a relay is made of.
-/

namespace LogRelay

/-- What the program is told. -/
structure Settings where
  servers : List Address := []
  /-- The number of events at which a batch is full. -/
  spoolSize : Nat := 1024
  /-- How long events may wait for a full batch. -/
  idleFlushTime : Duration := .ofMillis 5000
  /-- How long a collector may take for anything. -/
  serverTimeout : Duration := .ofMillis 30000
  reconnectDelay : Duration := Reconnect.defaultDelay
  /-- The greatest rest, if rests grow. -/
  reconnectMaxDelay : Option Duration := none
  theirPublicKey : Option Bytes := none
  /-- Our secret key; without one we draw one. -/
  mySecretKey : Option Bytes := none
  logLevel : String := "info"
deriving DecidableEq

/-- What a relay is made of. -/
structure RelayPlan where
  link : LinkSettings
  batcher : BatcherSettings
  keys : Keys
deriving DecidableEq

namespace Settings

/-- A condition that settings have to meet. -/
def require (ok : Bool) (f : SettingsFault) : Except SettingsFault Unit :=
  if ok then .ok () else .error f

/-- A key has to have the length of a key. -/
def requireLength (role : KeyRole) (bs : Bytes) : Except SettingsFault Unit :=
  require (bs.length == keySize) (.key (.length ⟨role, bs.length⟩))

/-- Settings are accepted, or the first thing wrong with them is reported. -/
def validate (s : Settings) : Except SettingsFault Unit := do
  require (!s.servers.isEmpty) (.address .noServers)
  require (s.spoolSize != 0) (.setting (.zero "spool size"))
  require (!s.idleFlushTime.isZero) (.setting (.zero "idle flush time"))
  require (!s.serverTimeout.isZero) (.setting (.zero "server timeout"))
  require (!s.reconnectDelay.isZero) (.setting (.zero "reconnect delay"))
  match s.reconnectMaxDelay with
  | some longest =>
    require (s.reconnectDelay.nanos ≤ longest.nanos) (.setting .restsCrossed)
  | none => .ok ()
  match s.theirPublicKey with
  | none => .error (.key .required)
  | some key => requireLength .theirs key
  match s.mySecretKey with
  | none => .ok ()
  | some key => requireLength .ours key
  require (Severity.ofName? s.logLevel).isSome (.setting (.logLevel s.logLevel))

/-- The rests between attempts to connect: they grow if a greatest one is set. -/
def reconnect (s : Settings) : Reconnect :=
  match s.reconnectMaxDelay with
  | some longest => .backoff s.reconnectDelay longest
  | none => .fixed s.reconnectDelay

/-- What the link is told. -/
def link (s : Settings) : Except SettingsFault LinkSettings := do
  let servers ← (AddressSet.ofList s.servers).mapError .address
  return {
    servers
    sendLimit := some s.serverTimeout
    receiveLimit := some s.serverTimeout
    connectLimit := some s.serverTimeout
    reconnect := s.reconnect }

/-- What the batcher is told. -/
def batcher (s : Settings) : BatcherSettings := ⟨s.spoolSize, s.idleFlushTime⟩

/-- The keys; a missing secret is drawn. -/
def keys (s : Settings) (r : Random) : Except SettingsFault Keys × Random :=
  match s.theirPublicKey with
  | none => (.error (.key .required), r)
  | some their =>
    let (k, r) := Keys.ofBytes their s.mySecretKey r
    (k.mapError fun f => .key (.length f), r)

/-- What a relay for settings is made of, and the random source after its keys.  The settings are validated
whether that was done before or not. -/
def plan (s : Settings) (r : Random) : Except SettingsFault (RelayPlan × Random) := do
  s.validate
  let link ← s.link
  let (keys, r) := s.keys r
  let keys ← keys
  return ({ link, batcher := s.batcher, keys }, r)

end Settings

end LogRelay
