import LogRelay.Program
import LogRelay.Proofs.Attempts
import LogRelay.Proofs.Link.Backoff
import Mathlib.Tactic.MkIffOfInductiveProp

/-!
# From settings to a relay

Settings are looked at in several places: when they are read, when they are validated, and when each part
of a relay is told what concerns it.  Each part has checks and defaults of its own, and these never come to
anything that was not settled before.

* `Settings.Valid`, `validate_eq_ok_iff`: what is demanded of settings;
* `Settings.plan_eq_error_iff`, `exists_plan_iff`: a relay can be planned exactly for valid settings;
* `Settings.Carried`, `Valid.carried`: what was set arrives at the parts of the relay unchanged.
-/

namespace LogRelay.Settings

/-- What is demanded of settings. -/
@[mk_iff]
structure Valid (s : Settings) : Prop where
  servers : s.servers ≠ []
  spoolSize : 0 < s.spoolSize
  idleFlushTime : 0 < s.idleFlushTime.nanos
  serverTimeout : 0 < s.serverTimeout.nanos
  reconnectDelay : 0 < s.reconnectDelay.nanos
  reconnectMaxDelay : ∀ longest, s.reconnectMaxDelay = some longest →
    s.reconnectDelay.nanos ≤ longest.nanos
  theirPublicKey : ∃ key, s.theirPublicKey = some key ∧ key.length = keySize
  mySecretKey : ∀ key, s.mySecretKey = some key → key.length = keySize
  logLevel : ∃ v, Severity.ofName? s.logLevel = some v

variable {s : Settings} {r : Random}

theorem require_eq_ok_iff {ok : Bool} {f : SettingsFault} {u : Unit} :
    require ok f = .ok u ↔ ok = true := by
  cases ok <;> simp [require]

/-- Settings are accepted exactly if they are valid. -/
theorem validate_eq_ok_iff : s.validate = .ok () ↔ s.Valid := by
  rw [validate, valid_iff]
  cases s.reconnectMaxDelay <;> cases s.theirPublicKey <;> cases s.mySecretKey <;>
    simp [bind_eq_ok_iff, require_eq_ok_iff, requireLength, Duration.isZero, Nat.pos_iff_ne_zero,
      Option.isSome_iff_exists]

/-! ### What the parts of a relay are told -/

theorem link_eq (h : 0 < s.servers.length) : s.link = .ok
    { servers := ⟨s.servers, h⟩
      sendLimit := some s.serverTimeout
      receiveLimit := some s.serverTimeout
      connectLimit := some s.serverTimeout
      reconnect := s.reconnect } := by
  simp only [link, AddressSet.ofList, dif_pos h, Except.mapError, bind, Except.bind, pure, Except.pure]

/-- A limit that is set and not zero is the limit. -/
theorem limitOr_some {d other : Duration} (h : 0 < d.nanos) : LinkSettings.limitOr (some d) other = d := by
  simp only [LinkSettings.limitOr, Duration.isZero_iff, if_neg (Nat.ne_of_gt h)]

/-- Keys of the right lengths are taken as they are; only a missing secret is drawn. -/
theorem Valid.exists_keys (h : s.Valid) (r : Random) : ∃ k r', s.keys r = (.ok k, r') ∧
    s.theirPublicKey = some k.theirPublic.bytes ∧
    (∀ secret, s.mySecretKey = some secret → k.ourSecret.bytes = secret ∧ r' = r) ∧
    (s.mySecretKey = none → (k.ourSecret, r') = Key.draw r) := by
  obtain ⟨their, htheir, hlength⟩ := h.theirPublicKey
  cases hour : s.mySecretKey with
  | none =>
    refine ⟨⟨⟨their, hlength⟩, (Key.draw r).1⟩, (Key.draw r).2, ?_, htheir, by simp, fun _ => rfl⟩
    simp only [keys, htheir, hour, Keys.ofBytes, Key.ofBytes, dif_pos hlength, Except.mapError]
  | some secret =>
    have hsecret := h.mySecretKey secret hour
    refine ⟨⟨⟨their, hlength⟩, ⟨secret, hsecret⟩⟩, r, ?_, htheir, by simp, by simp⟩
    simp only [keys, htheir, hour, Keys.ofBytes, Key.ofBytes, dif_pos hlength, dif_pos hsecret,
      Except.map, Except.mapError]

/-- A relay can be planned for valid settings. -/
theorem Valid.exists_plan (h : s.Valid) (r : Random) : ∃ p r', s.plan r = .ok (p, r') ∧
    s.link = .ok p.link ∧ p.batcher = s.batcher ∧ s.keys r = (.ok p.keys, r') := by
  obtain ⟨k, r', hkeys, -⟩ := h.exists_keys r
  have hlink := link_eq (List.length_pos_iff.2 h.servers)
  refine ⟨⟨_, s.batcher, k⟩, r', ?_, hlink, rfl, hkeys⟩
  rw [plan, validate_eq_ok_iff.2 h, hlink, hkeys]
  rfl

/-- Planning a relay fails exactly with what is wrong with the settings. -/
theorem plan_eq_error_iff {f : SettingsFault} : s.plan r = .error f ↔ s.validate = .error f := by
  rw [plan, bind_eq_error_iff]
  refine ⟨?_, .inl⟩
  rintro (hfault | ⟨⟨⟩, hvalid, hrest⟩)
  · exact hfault
  · -- nothing that comes after the validation fails
    obtain ⟨p, r', hplan, -⟩ := (validate_eq_ok_iff.1 hvalid).exists_plan r
    rw [plan, hvalid] at hplan
    exact absurd (hrest.symm.trans hplan) (by simp)

theorem exists_plan_iff : (∃ p, s.plan r = .ok p) ↔ s.validate = .ok () := by
  constructor
  · rintro ⟨p, hp⟩
    rw [plan, bind_eq_ok_iff] at hp
    obtain ⟨⟨⟩, hvalid, -⟩ := hp
    exact hvalid
  · intro hvalid
    obtain ⟨p, r', hplan, -⟩ := (validate_eq_ok_iff.1 hvalid).exists_plan r
    exact ⟨_, hplan⟩

/-! ### What was set arrives unchanged -/

/-- What a relay goes by is what the settings say: its collectors, each of its limits, the size of its
spool and its idle time, the keys that were given, and rests that are not empty and lie between those that
were set. -/
structure Carried (s : Settings) (p : RelayPlan) (l : Link) : Prop where
  servers : l.servers.addresses = s.servers
  limits : l.limits = ⟨s.serverTimeout, s.serverTimeout, s.serverTimeout⟩
  size : ∀ now, (Batcher.start p.batcher now).size = s.spoolSize
  idle : ∀ now, (Batcher.start p.batcher now).idle = s.idleFlushTime
  theirs : s.theirPublicKey = some p.keys.theirPublic.bytes
  ours : ∀ secret, s.mySecretKey = some secret →
    p.keys.ourSecret.bytes = secret ∧ p.keys.ourPublic.bytes = Curve.publicOf secret
  rests : 0 < s.reconnectDelay.nanos
  restsFrom : ∀ n, 1 ≤ n → s.reconnectDelay.nanos ≤ (l.reconnect.delay n).nanos
  restsUpTo : ∀ n, 1 ≤ n → ∀ longest, s.reconnectMaxDelay = some longest →
    (l.reconnect.delay n).nanos ≤ longest.nanos
  restsAlike : ∀ n, 1 ≤ n → s.reconnectMaxDelay = none → l.reconnect.delay n = s.reconnectDelay

/-- A rest is not shorter than the first one. -/
theorem Valid.reconnectDelay_le (h : s.Valid) (n : Nat) :
    s.reconnectDelay.nanos ≤ (s.reconnect.delay n).nanos := by
  rw [reconnect]
  cases hmax : s.reconnectMaxDelay with
  | none => exact Nat.le_refl _
  | some longest =>
    have hfactor : 0 < Reconnect.factor n := by
      rw [Reconnect.factor_eq_min]
      exact Nat.lt_min.2 ⟨Nat.two_pow_pos _, by decide⟩
    rw [Reconnect.nanos_backoff]
    exact Nat.le_min.2 ⟨Nat.le_mul_of_pos_right _ hfactor, h.reconnectMaxDelay longest hmax⟩

/-- The link that is made of valid settings. -/
theorem Valid.exists_link (h : s.Valid) {told : LinkSettings} (hlink : s.link = .ok told) :
    ∃ l, Link.ofSettings told = .ok l ∧ l.servers.addresses = s.servers ∧
      l.limits = ⟨s.serverTimeout, s.serverTimeout, s.serverTimeout⟩ ∧ l.reconnect = s.reconnect := by
  rw [link_eq (List.length_pos_iff.2 h.servers)] at hlink
  obtain rfl := Except.ok.inj hlink
  refine ⟨_, rfl, rfl, ?_, rfl⟩
  simp only [LinkSettings.limits, limitOr_some h.serverTimeout]

theorem Valid.carried (h : s.Valid) {p : RelayPlan} {l : Link} {r' : Random}
    (hbatcher : p.batcher = s.batcher) (hkeys : s.keys r = (.ok p.keys, r'))
    (hservers : l.servers.addresses = s.servers)
    (hlimits : l.limits = ⟨s.serverTimeout, s.serverTimeout, s.serverTimeout⟩)
    (hreconnect : l.reconnect = s.reconnect) : Carried s p l := by
  obtain ⟨k, r'', hk, htheirs, hours, -⟩ := h.exists_keys r
  obtain ⟨hk, -⟩ := Prod.mk.inj (hkeys.symm.trans hk)
  obtain rfl := Except.ok.inj hk
  refine ⟨hservers, hlimits, fun now => ?_, fun now => by rw [hbatcher]; rfl, htheirs, ?_,
    h.reconnectDelay, fun n _ => hreconnect ▸ h.reconnectDelay_le n, ?_, ?_⟩
  · rw [hbatcher]
    exact Nat.max_eq_left h.spoolSize
  · intro secret hsecret
    obtain ⟨hbytes, -⟩ := hours secret hsecret
    exact ⟨hbytes, by rw [← hbytes]; rfl⟩
  · intro n _ longest hmax
    rw [hreconnect, reconnect, hmax, Reconnect.nanos_backoff]
    exact Nat.min_le_right _ _
  · intro n _ hmax
    rw [hreconnect, reconnect, hmax]
    rfl

/-- **Settings that load can run.**  Whatever the variables are, what is read from them is valid if it is read
at all; then a relay can be planned, its link can be made, and the program gets its relay.  What was set
arrives at the parts unchanged: no check and no default in between makes a difference, and no secret is
drawn if one was given.  And however settings came about: a relay can be planned for them exactly if they are
accepted, and otherwise the fault is the same. -/
theorem loads_and_runs :
    (∀ look s, ofVariables look = .ok s → s.validate = .ok () ∧
      ∀ r, ∃ p r' l, s.plan r = .ok (p, r') ∧ s.link = .ok p.link ∧ Link.ofSettings p.link = .ok l ∧
        Program.relay s r = .ok (Relay.start {} p.batcher p.keys l 0, r') ∧ Carried s p l ∧
        (s.mySecretKey ≠ none → r' = r)) ∧
    ∀ (s : Settings) (r : Random), ((∃ p, s.plan r = .ok p) ↔ s.validate = .ok ()) ∧
      ∀ f, s.plan r = .error f ↔ s.validate = .error f := by
  refine ⟨fun look s hload => ?_, fun s r => ⟨exists_plan_iff, fun f => plan_eq_error_iff⟩⟩
  have hvalid : s.validate = .ok () := by
    simp only [ofVariables, bind_eq_ok_iff] at hload
    obtain ⟨s', -, ⟨⟩, hvalid, hs⟩ := hload
    exact Except.ok.inj hs ▸ hvalid
  refine ⟨hvalid, fun r => ?_⟩
  have h := validate_eq_ok_iff.1 hvalid
  obtain ⟨p, r', hplan, htold, hbatcher, hkeys⟩ := h.exists_plan r
  obtain ⟨l, hlink, hservers, hlimits, hreconnect⟩ := h.exists_link htold
  refine ⟨p, r', l, hplan, htold, hlink, ?_, h.carried hbatcher hkeys hservers hlimits hreconnect, ?_⟩
  · rw [Program.relay, hplan]
    simp only [bind, Except.bind, hlink]
    rfl
  · intro hgiven
    obtain ⟨k, r'', hk, -, hours, -⟩ := h.exists_keys r
    obtain ⟨secret, hsecret⟩ := Option.ne_none_iff_exists'.1 hgiven
    obtain ⟨-, rfl⟩ := Prod.mk.inj (hkeys.symm.trans hk)
    exact (hours secret hsecret).2

/-- One collector, both keys, a server timeout of a millisecond, and rests that grow. -/
def bothKeys : Lookup
  | "LUMBERJACK_SERVERS" => some "a"
  | "LUMBERJACK_SPOOL_SIZE" => some " 2 "
  | "LUMBERJACK_SERVER_TIMEOUT_MS" => some "1"
  | "LUMBERJACK_RECONNECT_MAX_DELAY_MS" => some "60000"
  | "LUMBERJACK_THEIR_PUBLIC_KEY" => some "AQEBAQEBAQEBAQEBAQEBAQEBAQEBAQEBAQEBAQEBAQE="
  | "LUMBERJACK_MY_SECRET_KEY" => some "AgICAgICAgICAgICAgICAgICAgICAgICAgICAgICAgI="
  | _ => none

/-- With both keys given there is nothing to draw.  Settings as they are by default name no collector. -/
theorem loads_and_runs_bothKeys :
    (∃ s, ofVariables bothKeys = .ok s ∧ s.validate = .ok () ∧
      ∃ p r' l, s.plan ⟨[], 0⟩ = .ok (p, r') ∧ Link.ofSettings p.link = .ok l ∧
        l.limits = ⟨.ofMillis 1, .ofMillis 1, .ofMillis 1⟩ ∧
        (∀ now, (Batcher.start p.batcher now).size = 2) ∧
        p.keys.ourSecret.bytes = List.replicate 32 2 ∧
        ∀ n, 1 ≤ n → (Duration.ofMillis 500).nanos ≤ (l.reconnect.delay n).nanos ∧
          (l.reconnect.delay n).nanos ≤ (Duration.ofMillis 60000).nanos) ∧
    Settings.plan {} ⟨[], 0⟩ = .error (.address .noServers) := by
  let s : Settings := {
    servers := [⟨"tcp://a:5005"⟩]
    spoolSize := 2
    serverTimeout := .ofMillis 1
    reconnectMaxDelay := some (.ofMillis 60000)
    theirPublicKey := some (List.replicate 32 1)
    mySecretKey := some (List.replicate 32 2) }
  have hload : ofVariables bothKeys = .ok s := by rfl
  obtain ⟨hruns, hplans⟩ := loads_and_runs
  obtain ⟨hvalid, hplan⟩ := hruns bothKeys s hload
  obtain ⟨p, r', l, hplan, -, hlink, -, hcarried, -⟩ := hplan ⟨[], 0⟩
  refine ⟨⟨s, hload, hvalid, p, r', l, hplan, hlink, hcarried.limits, hcarried.size,
    (hcarried.ours _ rfl).1, fun n hn => ?_⟩, ((hplans {} _).2 _).2 rfl⟩
  exact ⟨hcarried.restsFrom n hn, hcarried.restsUpTo n hn _ rfl⟩

end LogRelay.Settings
