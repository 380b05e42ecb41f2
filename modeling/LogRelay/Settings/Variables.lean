import LogRelay.Settings.Basic
import LogRelay.Text.Blank
import LogRelay.Text.Lowercase
import LogRelay.Text.Utf8

/-!
# Settings from variables

Settings are read from named texts, such as the variables of a process.  A variable that is not set leaves
its setting as it is by default, and a blank key counts as not set.  The variables are read in a fixed
order, the first fault is reported, and what was read is validated.
-/

namespace LogRelay.Settings

/-- Where variables are looked up. -/
abbrev Lookup := String → Option String

/-- The names of all variables that are looked up. -/
def variableNames : List String :=
  ["LUMBERJACK_SERVERS", "LUMBERJACK_SPOOL_SIZE", "LUMBERJACK_IDLE_FLUSH_TIME_MS",
    "LUMBERJACK_SERVER_TIMEOUT_MS", "LUMBERJACK_RECONNECT_DELAY_MS", "LUMBERJACK_RECONNECT_MAX_DELAY_MS",
    "LUMBERJACK_THEIR_PUBLIC_KEY", "LUMBERJACK_MY_SECRET_KEY", "LUMBERJACK_LOG_LEVEL"]

def number (look : Lookup) (name : String) : Except SettingsFault (Option Nat) :=
  match look name with
  | none => .ok none
  | some given =>
    match Text.parseDecimal Text.maxWord (Text.trimChars given.toList) with
    | .ok n => .ok (some n)
    | .error f => .error (.setting (.numeral name f))

/-- A span of time in milliseconds. -/
def millis (look : Lookup) (name : String) : Except SettingsFault (Option Duration) :=
  (number look name).map fun n => n.map Duration.ofMillis

/-- A key in Base64. -/
def key (look : Lookup) (name : String) : Except SettingsFault (Option Bytes) :=
  match look name with
  | none => .ok none
  | some given =>
    let cs := Text.trimChars given.toList
    if cs.isEmpty then .ok none
    else
      match Base64.decode (Utf8.encode cs) with
      | .ok bs => .ok (some bs)
      | .error f => .error (.key (.encoding name f))

/-- The collectors. -/
def serverList (look : Lookup) (name : String) : Except SettingsFault (List Address) :=
  match look name with
  | none => .ok []
  | some given => (Address.parseList given).mapError .address

/-- A severity in lower case. -/
def level (look : Lookup) (name : String) (other : String) : String :=
  match look name with
  | none => other
  | some given => Text.lowercase (Text.trim given)

/-- What the variables say, whether it is acceptable or not. -/
def readVariables (look : Lookup) : Except SettingsFault Settings := do
  let d : Settings := {}
  let servers ← serverList look "LUMBERJACK_SERVERS"
  let spoolSize ← number look "LUMBERJACK_SPOOL_SIZE"
  let idleFlushTime ← millis look "LUMBERJACK_IDLE_FLUSH_TIME_MS"
  let serverTimeout ← millis look "LUMBERJACK_SERVER_TIMEOUT_MS"
  let reconnectDelay ← millis look "LUMBERJACK_RECONNECT_DELAY_MS"
  let reconnectMaxDelay ← millis look "LUMBERJACK_RECONNECT_MAX_DELAY_MS"
  let theirPublicKey ← key look "LUMBERJACK_THEIR_PUBLIC_KEY"
  let mySecretKey ← key look "LUMBERJACK_MY_SECRET_KEY"
  return {
    servers
    spoolSize := spoolSize.getD d.spoolSize
    idleFlushTime := idleFlushTime.getD d.idleFlushTime
    serverTimeout := serverTimeout.getD d.serverTimeout
    reconnectDelay := reconnectDelay.getD d.reconnectDelay
    reconnectMaxDelay
    theirPublicKey
    mySecretKey
    logLevel := level look "LUMBERJACK_LOG_LEVEL" d.logLevel }

/-- The settings that variables make. -/
def ofVariables (look : Lookup) : Except SettingsFault Settings := do
  let s ← readVariables look
  s.validate
  return s

end LogRelay.Settings
