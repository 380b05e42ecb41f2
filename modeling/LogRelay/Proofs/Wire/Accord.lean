import LogRelay.Proofs.Delivery
import LogRelay.Proofs.Wire.Basic

/-!
# An operation and its socket agree

What a link believes of its session is what has gone over its latest socket.  The next leg of a
round begins only on a socket on which the legs before it have succeeded.

* `Leg.phase`, `Leg.call`: the phase in which a leg is next, and its call;
* `Link.Rests`: a link that is not in use;
* `Operation.Accord`, `Operation.accord_turn`: an operation for a leg agrees with the socket, and
  every answer keeps it so;
* `Delivery.Accord`, `Delivery.accord_turn`: the same for a delivery.

There is one exception: when all was called off in the middle of a round, the session is left as it
was, but nothing is asked of its socket any more except to close.
-/

namespace LogRelay

/-! ### Legs -/

namespace Leg

/-- The leg that follows when a leg has succeeded: after the reply comes the nonce of the next round. -/
def next : Leg → Leg
  | nonce => ciphertext
  | ciphertext => reply
  | reply => nonce

def call (f : Frames) : Leg → Call
  | nonce => .send f.nonce true
  | ciphertext => .send f.ciphertext false
  | reply => .receive

/-- The phase of a socket on which a leg is next. -/
def phase (f : Frames) : Leg → Phase
  | nonce => .ready
  | ciphertext => .nonceOut f
  | reply => .awaiting f

/-- Whether a message is under way when a leg is next. -/
def midMessage : Leg → Bool
  | ciphertext => true
  | nonce | reply => false

end Leg

section

variable {cut : Prop} {offered : List Frames} {log : List Entry} {leg : Leg} {f : Frames}

theorem Traffic.done (h : Traffic cut offered log (leg.phase f)) (hf : f ∈ offered) (x : Bytes) :
    Traffic cut offered (log ++ [.call (leg.call f) (some (.done x))]) (leg.next.phase f) := by
  cases leg with
  | nonce => exact .nonceSent h hf x
  | ciphertext => exact .ciphertextSent h x
  | reply => exact .replied h x

theorem Traffic.lost (h : Traffic cut offered log (leg.phase f)) (hf : f ∈ offered) {o : Option Outcome}
    (ho : breaksOff cut o) : Traffic cut offered (log ++ [.call (leg.call f) o]) .broken := by
  cases leg with
  | nonce => exact .nonceLost h hf ho
  | ciphertext => exact .ciphertextLost h ho
  | reply => exact .replyLost h ho

/-- A leg is next on a socket that is connected. -/
theorem Leg.phase_ne (leg : Leg) (f : Frames) : leg.phase f ≠ .closed ∧ leg.phase f ≠ .dialing := by
  cases leg <;> simp [Leg.phase]

/-- A leg succeeds. -/
theorem Wire.InPhase.done {w : Wire} (h : w.InPhase offered (leg.phase f)) (place : Nat)
    (hf : f ∈ offered) (hu : w.under = some (leg.call f)) (x : Bytes) :
    (w.note place (.outcome (.done x))).InPhase offered (leg.next.phase f) :=
  h.outcome (Leg.phase_ne leg f).1 hu (fun _ hlog => hlog.done hf x)
    fun _ hno => absurd hno (Leg.phase_ne leg f).2

/-- A leg breaks off the round. -/
theorem Wire.InPhase.lost {w : Wire} {o : Outcome} (h : w.InPhase offered (leg.phase f))
    (place : Nat) (hf : f ∈ offered) (hu : w.under = some (leg.call f))
    (ho : breaksOff w.IsCut (some o)) : (w.note place (.outcome o)).InPhase offered .broken :=
  h.outcome (Leg.phase_ne leg f).1 hu (fun _ hlog => hlog.lost hf ho)
    fun _ hno => absurd hno (Leg.phase_ne leg f).2

theorem breaksOff_of_isFailure {o : Outcome} (h : o.isFailure = true) : breaksOff cut (some o) := by
  cases o with
  | failed cause => exact .inl ⟨cause, rfl⟩
  | expired => exact .inr (.inl rfl)
  | done | withheld | abandoned => exact absurd h (by simp [Outcome.isFailure])

/-- The call of the operation for a leg. -/
theorem callOf_goal (l : Link) (p : PreparedBatch) (leg : Leg) :
    ∃ limit, Operation.callOf l (Delivery.goal p leg) = .call (leg.call p.frames) limit := by
  cases leg <;> exact ⟨_, rfl⟩

end

/-! ### Operations -/

theorem Delivery.of_goal_send {p : PreparedBatch} {leg : Leg} {frame : Bytes} {more : Bool}
    (h : Delivery.goal p leg = .send frame more) : leg ≠ .reply ∧ more = leg.next.midMessage := by
  cases leg with
  | nonce => exact ⟨by simp, (Goal.send.inj h).2.symm⟩
  | ciphertext => exact ⟨by simp, (Goal.send.inj h).2.symm⟩
  | reply => exact absurd h (by simp [Delivery.goal])

theorem Delivery.of_goal_receive {p : PreparedBatch} {leg : Leg} (h : Delivery.goal p leg = .receive) :
    leg = .reply := by
  cases leg with
  | reply => rfl
  | nonce | ciphertext => exact absurd h (by simp [Delivery.goal])

/-- What a session and its socket have come to when a leg is next. -/
def Session.Stands (s : Session) (f : Frames) (leg : Leg) (ph : Phase) : Prop :=
  ph = leg.phase f ∧ s.midMessage = leg.midMessage

/-- A link that is not in use: its session is at the beginning of a round, unless all was called off. -/
def Link.Rests (called : Bool) (l : Link) (ph : Phase) : Prop :=
  match l.session with
  | none => ph = .closed
  | some s => ph ≠ .closed ∧ (called = true ∨ ph = .ready ∧ s.midMessage = false)

theorem Link.Rests.mono {called called' : Bool} {l : Link} {ph : Phase} (h : l.Rests called ph)
    (hc : called = true → called' = true) : l.Rests called' ph := by
  rw [Rests] at h ⊢
  cases hl : l.session with
  | none =>
    rw [hl] at h
    exact h
  | some s =>
    rw [hl] at h
    exact ⟨h.1, h.2.imp_left hc⟩

/-- The socket of a link that is not in use is closed or between two rounds, unless all was called
off. -/
theorem Link.Rests.settled {called : Bool} {l : Link} {ph : Phase} (h : l.Rests called ph) :
    called = true ∨ ph = .closed ∨ ph = .ready := by
  rw [Rests] at h
  cases hl : l.session with
  | none =>
    rw [hl] at h
    exact .inr (.inl h)
  | some s =>
    rw [hl] at h
    rcases h.2 with hcalled | ⟨hready, -⟩
    · exact .inl hcalled
    · exact .inr (.inr hready)

/-- Nothing can be asked of a socket any more: all was called off, and no call is under way. -/
def Wire.Silent (w : Wire) : Prop := w.called = true ∧ w.under = none

namespace Operation

/-- An operation for a leg of a round agrees with the socket at every stage. -/
def Accord (w : Wire) (f : Frames) (leg : Leg) (ph : Phase) (o : Operation) : Prop :=
  match o.stage with
  | .opening => o.link.session = none ∧ leg = .nonce ∧ ph = .closed
  | .choosing _ | .connecting _ _ | .resting _ => o.link.session = none ∧ leg = .nonce ∧ ph = .dialing
  | .releasing => o.link.session = none ∧ ph = .dialing
  | .using s => o.link.session = some s ∧ (s.Stands f leg ph ∨ w.Silent ∧ ph ≠ .closed)
  | .ending next => o.link.session = none ∧ ph = .broken ∧
      (leg = .nonce ∨ ∃ notices r, next = .stop notices r)
  | .finished (.ok _) => ∃ s, o.link.session = some s ∧ s.Stands f leg.next ph
  | .finished (.error fault) =>
    (fault = .cancelled → o.link.Rests true ph) ∧
    (fault ≠ .cancelled → o.link.session = none ∧ ph = .closed)

variable {o o' : Operation} {w w' : Wire} {f : Frames} {leg : Leg} {ph : Phase} {l : Link}
  {p : PreparedBatch} {offered : List Frames} {r : Outcome}

theorem Accord.mono (h : o.Accord w f leg ph) (hw : w.Silent → w'.Silent) : o.Accord w' f leg ph := by
  unfold Accord at h ⊢
  cases hs : o.stage with
  | «using» s =>
    rw [hs] at h
    exact ⟨h.1, h.2.imp_right fun ⟨hsilent, hph⟩ => ⟨hw hsilent, hph⟩⟩
  | finished r =>
    rw [hs] at h
    cases r <;> exact h
  | opening | choosing | connecting | resting | releasing | ending =>
    rw [hs] at h
    exact h

theorem Accord.of_ok {x : Bytes} (h : o.Accord w f leg ph) (hr : o.result? = some (.ok x)) :
    ∃ s, o.link.session = some s ∧ s.Stands f leg.next ph := by
  rw [result?] at hr
  cases hs : o.stage with
  | finished r =>
    rw [hs] at hr
    obtain rfl := Option.some.inj hr
    simpa only [Accord, hs] using h
  | opening | choosing | connecting | resting | releasing | «using» | ending =>
    rw [hs] at hr
    exact absurd hr (by simp)

theorem Accord.of_error {fault : LinkFault} (h : o.Accord w f leg ph)
    (hr : o.result? = some (.error fault)) :
    (fault = .cancelled → o.link.Rests true ph) ∧
      (fault ≠ .cancelled → o.link.session = none ∧ ph = .closed) := by
  rw [result?] at hr
  cases hs : o.stage with
  | finished r =>
    rw [hs] at hr
    obtain rfl := Option.some.inj hr
    simpa only [Accord, hs] using h
  | opening | choosing | connecting | resting | releasing | «using» | ending =>
    rw [hs] at hr
    exact absurd hr (by simp)

/-- A leg begins on a session that stands as it should, or without a session if it is the first. -/
theorem accord_start (h : leg = .nonce ∧ l.session = none ∧ ph = .closed ∨
      ∃ s, l.session = some s ∧ (s.Stands f leg ph ∨ w.Silent ∧ ph ≠ .closed)) :
    (start l (Delivery.goal p leg)).next.Accord w f leg ph := by
  rcases h with ⟨rfl, hl, rfl⟩ | ⟨s, hl, hstands⟩
  · rw [start_of_none hl]
    exact ⟨hl, rfl, rfl⟩
  · rw [start_of_some hl (Delivery.goal_ne p leg).2]
    cases leg <;> exact ⟨hl, hstands⟩

/-- A call that is under way has begun in its phase. -/
theorem Accord.begun {c : Call} {limit : Duration} (h : o.Accord w f leg ph)
    (hgoal : o.goal = Delivery.goal p leg)
    (hf : f = p.frames) (hwant : o.want = .call c limit) (hu : w.under = some c) :
    (ph = .dialing ∧ ∃ a, c = .connect a) ∨ (ph = leg.phase f ∧ c = leg.call f) := by
  cases hs : o.stage with
  | connecting a n =>
    simp only [Accord, hs] at h
    rw [want, hs] at hwant
    exact .inl ⟨h.2.2, a, (LinkWant.call.inj hwant).1.symm⟩
  | «using» s =>
    simp only [Accord, hs] at h
    obtain ⟨limit', hcall⟩ := callOf_goal o.link p leg
    rw [want, hs, hgoal, hcall] at hwant
    have hc : c = leg.call f := by rw [hf, (LinkWant.call.inj hwant).1]
    rcases h.2 with ⟨hph, -⟩ | ⟨⟨-, hnone⟩, -⟩
    · exact .inr ⟨hph, hc⟩
    · exact absurd (hu.symm.trans hnone) (by simp)
  | opening | choosing | resting | releasing | ending | finished =>
    rw [want, hs] at hwant
    exact absurd hwant (by simp)

/-- An attempt to connect has an outcome. -/
theorem accord_connecting {c : Address} {n : Nat} (place : Nat) (h : o.Accord w f leg ph)
    (hgoal : o.goal = Delivery.goal p leg)
    (hw : w.InPhase offered ph) (hs : o.stage = .connecting c n)
    (hunder : ∀ c', w.under = some c' → c' = .connect c)
    (ht : o.Turn (.outcome r) o') (hp : w.possible o.want (.outcome r) = true) :
    ∃ ph', (w.note place (.outcome r)).InPhase offered ph' ∧
      o'.Accord (w.note place (.outcome r)) f leg ph' := by
  simp only [Accord, hs] at h
  obtain ⟨hsession, rfl, rfl⟩ := h
  -- an attempt that does not succeed leaves the socket as it was
  have hrefused (hr : ∀ x, r ≠ .done x) : (w.note place (.outcome r)).InPhase offered .dialing := by
    cases hu : w.under with
    | none =>
      rw [Wire.note_outcome_of_none hu]
      exact hw
    | some c' =>
      obtain rfl := hunder c' hu
      exact hw.outcome (by simp) hu (fun log hlog => .refused hlog c fun x hx => hr x (Option.some.inj hx))
        fun _ _ => .inl rfl
  cases ht with
  | connected hs' x =>
    rw [hs] at hs'
    obtain ⟨rfl, rfl⟩ := Stage.connecting.inj hs'
    obtain ⟨hc, c', hu⟩ := Wire.of_possible_done hp
    obtain rfl := hunder c' hu
    have hready : (w.note place (.outcome (.done x))).InPhase offered .ready :=
      hw.outcome (by simp) hu (fun log hlog => .accepted hlog _ x)
        fun hcalled => absurd (hc.symm.trans hcalled) (by simp)
    refine ⟨.ready, hready, ?_⟩
    rw [hgoal]
    exact ⟨rfl, .inl ⟨rfl, rfl⟩⟩
  | connectFailed hs' hr =>
    refine ⟨.dialing, hrefused fun x hx => absurd hr (by simp [hx, Outcome.isFailure]), ?_⟩
    exact ⟨hsession, rfl, rfl⟩
  | connectCancelled hs' hr =>
    refine ⟨.dialing, hrefused fun x hx => absurd hr (by simp [hx, Outcome.isCallOff]), ?_⟩
    exact ⟨hsession, rfl⟩
  | sent hs' | sendFailed hs' | sendBroken hs' | received hs' | receiveFailed hs' | useCancelled hs' =>
    exact absurd (hs.symm.trans hs') (by simp)

/-- A frame or a reply has an outcome. -/
theorem accord_using {s : Session} (place : Nat) (h : o.Accord w f leg ph)
    (hgoal : o.goal = Delivery.goal p leg)
    (hf : f ∈ offered) (hw : w.InPhase offered ph) (hs : o.stage = .using s)
    (hunder : ∀ c, w.under = some c → c = leg.call f)
    (ht : o.Turn (.outcome r) o') (hp : w.possible o.want (.outcome r) = true) :
    ∃ ph', (w.note place (.outcome r)).InPhase offered ph' ∧
      o'.Accord (w.note place (.outcome r)) f leg ph' := by
  simp only [Accord, hs] at h
  obtain ⟨hsession, hstands⟩ := h
  have hopen : ph ≠ .closed := by
    rcases hstands with ⟨rfl, -⟩ | ⟨-, hph⟩
    · exact (Leg.phase_ne leg f).1
    · exact hph
  -- a call that comes to an outcome has begun on a session that stands
  have hcall {c : Call} (hu : w.under = some c) : c = leg.call f ∧ s.Stands f leg ph := by
    refine ⟨hunder c hu, hstands.resolve_right ?_⟩
    rintro ⟨⟨-, hnone⟩, -⟩
    exact absurd (hu.symm.trans hnone) (by simp)
  have hdone {x : Bytes} (hr : r = .done x) : s.Stands f leg ph ∧
      (w.note place (.outcome r)).InPhase offered (leg.next.phase f) := by
    subst hr
    obtain ⟨-, c, hu⟩ := Wire.of_possible_done hp
    obtain ⟨rfl, rfl, hmid⟩ := hcall hu
    exact ⟨⟨rfl, hmid⟩, hw.done place hf hu x⟩
  have hlost (hr : r.isFailure = true) : s.Stands f leg ph ∧
      (w.note place (.outcome r)).InPhase offered .broken := by
    rcases Wire.of_possible_outcome hp with ⟨-, -, c, hu⟩ | ⟨-, rfl, -⟩ | ⟨-, rfl, -⟩
    · obtain ⟨rfl, rfl, hmid⟩ := hcall hu
      exact ⟨⟨rfl, hmid⟩, hw.lost place hf hu (breaksOff_of_isFailure hr)⟩
    · exact absurd hr (by simp [Outcome.isFailure])
    · exact absurd hr (by simp [Outcome.isFailure])
  cases ht with
  | @sent s' frame more hs' hg y =>
    obtain rfl := Stage.using.inj (hs.symm.trans hs')
    obtain ⟨-, hphase⟩ := hdone rfl
    have hmore := (Delivery.of_goal_send (hgoal.symm.trans hg)).2
    exact ⟨leg.next.phase f, hphase, { s with midMessage := more }, rfl, rfl, hmore⟩
  | received hs' hg y =>
    obtain rfl := Stage.using.inj (hs.symm.trans hs')
    obtain ⟨-, hphase⟩ := hdone rfl
    obtain rfl := Delivery.of_goal_receive (hgoal.symm.trans hg)
    exact ⟨.ready, hphase, { s with midMessage := false }, rfl, rfl, rfl⟩
  | sendFailed hs' hg hm hr =>
    obtain rfl := Stage.using.inj (hs.symm.trans hs')
    obtain ⟨hst, hphase⟩ := hlost hr
    refine ⟨.broken, hphase, rfl, rfl, .inl ?_⟩
    have hleg := (Delivery.of_goal_send (hgoal.symm.trans hg)).1
    have hmid := hst.2.symm.trans hm
    cases leg with
    | nonce => rfl
    | ciphertext => exact absurd hmid (by simp [Leg.midMessage])
    | reply => exact absurd rfl hleg
  | sendBroken hs' hg hm hr notices => exact ⟨.broken, (hlost hr).2, rfl, rfl, .inr ⟨_, _, rfl⟩⟩
  | receiveFailed hs' hg hr notices hfault => exact ⟨.broken, (hlost hr).2, rfl, rfl, .inr ⟨_, _, rfl⟩⟩
  | useCancelled hs' hr =>
    -- the session is left as it is
    have hrests {ph' : Phase} (hph : ph' ≠ .closed) : o.link.Rests true ph' := by
      rw [Link.Rests, hsession]
      exact ⟨hph, .inl rfl⟩
    rcases Wire.of_possible_outcome hp with ⟨-, hno, -⟩ | ⟨-, rfl, hu⟩ | ⟨hc, rfl, c, hu⟩
    · exact absurd (hno.symm.trans hr) (by simp)
    · rw [Wire.note_outcome_of_none hu]
      exact ⟨ph, hw, fun _ => hrests hopen, fun hno => absurd rfl hno⟩
    · obtain ⟨rfl, rfl, -⟩ := hcall hu
      have hcut : w.IsCut := (hw.late hc).resolve_right fun hno => hno.elim (Leg.phase_ne leg f).2 hopen
      refine ⟨.broken, hw.lost place hf hu (.inr (.inr ⟨hcut, by simp⟩)), ?_⟩
      exact ⟨fun _ => hrests (by simp), fun hno => absurd rfl hno⟩
  | connected hs' | connectFailed hs' | connectCancelled hs' =>
    exact absurd (hs.symm.trans hs') (by simp)

/-- A socket is opened, a collector is chosen, a rest ends, or a socket is closed. -/
theorem accord_aside {a : LinkAnswer} (place : Nat) (h : o.Accord w f leg ph) (ho : o.Sound w.called)
    (hw : w.InPhase offered ph) (ha : ∀ r, a ≠ .outcome r) (ht : o.Turn a o')
    (hp : w.possible o.want a = true) :
    ∃ ph', (w.note place a).InPhase offered ph' ∧ o'.Accord (w.note place a) f leg ph' := by
  cases ht with
  | opened hs =>
    simp only [Accord, hs] at h
    obtain ⟨hsession, rfl, rfl⟩ := h
    exact ⟨.dialing, hw.open, hsession, rfl, rfl⟩
  | refused hs cause =>
    simp only [Accord, hs] at h
    obtain ⟨hsession, rfl, rfl⟩ := h
    exact ⟨.closed, hw, fun hno => absurd hno (by simp), fun _ => ⟨hsession, rfl⟩⟩
  | chosen hs hc =>
    simp only [Accord, hs] at h
    obtain ⟨hsession, rfl, rfl⟩ := h
    exact ⟨.dialing, hw, hsession, rfl, rfl⟩
  | rested hs =>
    simp only [Accord, hs] at h
    obtain ⟨hsession, rfl, rfl⟩ := h
    exact ⟨.dialing, hw, hsession, rfl, rfl⟩
  | restCancelled hs =>
    simp only [Accord, hs] at h
    obtain ⟨hsession, rfl, rfl⟩ := h
    exact ⟨.dialing, hw, hsession, rfl⟩
  | released hs =>
    simp only [Accord, hs] at h
    obtain ⟨hsession, rfl⟩ := h
    have hclosed : (w.note place .closed).InPhase offered .closed :=
      hw.close (by simp) (by simp [Phase.isHalfway])
    refine ⟨.closed, hclosed, ?_, fun hno => absurd rfl hno⟩
    intro _
    rw [Link.Rests, hsession]
  | renewed hs =>
    simp only [Accord, hs] at h
    obtain ⟨hsession, rfl, hleg⟩ := h
    have hclosed : (w.note place .closed).InPhase offered .closed :=
      hw.close (by simp) (by simp [Phase.isHalfway])
    rcases hleg with rfl | ⟨notices, r, hno⟩
    · exact ⟨.closed, hclosed, hsession, rfl, rfl⟩
    · exact absurd hno (by simp)
  | ended hs =>
    obtain ⟨fault, rfl, hfault⟩ := ho.ending hs
    simp only [Accord, hs] at h
    obtain ⟨hsession, rfl, -⟩ := h
    have hclosed : (w.note place .closed).InPhase offered .closed :=
      hw.close (by simp) (by simp [Phase.isHalfway])
    refine ⟨.closed, hclosed, fun hno => absurd hfault ?_, fun _ => ⟨hsession, rfl⟩⟩
    simp [hno, LinkFault.isPassing]
  | connected | connectFailed | connectCancelled | sent | sendFailed | sendBroken | received | receiveFailed
  | useCancelled => exact absurd rfl (ha _)

/-- **Every answer keeps an operation and the socket in accord.** -/
theorem accord_turn {a : LinkAnswer} (place : Nat) (h : o.Accord w p.frames leg ph)
    (ho : o.Sound w.called) (hgoal : o.goal = Delivery.goal p leg) (hf : p.frames ∈ offered)
    (hw : w.InPhase offered ph)
    (hunder : ∀ c, w.under = some c → ∃ limit, o.want = .call c limit) (ht : o.Turn a o')
    (hp : w.possible o.want a = true) :
    ∃ ph', (w.note place a).InPhase offered ph' ∧ o'.Accord (w.note place a) p.frames leg ph' := by
  by_cases ha : ∃ r, a = .outcome r
  · obtain ⟨r, rfl⟩ := ha
    have hfit := Wire.fits_of_possible hp
    cases hs : o.stage with
    | connecting c n =>
      refine accord_connecting place h hgoal hw hs ?_ ht hp
      intro c' hu
      obtain ⟨limit, hwant⟩ := hunder c' hu
      rw [want, hs] at hwant
      exact (LinkWant.call.inj hwant).1.symm
    | «using» s =>
      refine accord_using place h hgoal hf hw hs ?_ ht hp
      intro c hu
      obtain ⟨limit, hwant⟩ := hunder c hu
      obtain ⟨limit', hcall⟩ := callOf_goal o.link p leg
      rw [want, hs, hgoal] at hwant
      exact (LinkWant.call.inj (hwant.symm.trans hcall)).1
    | opening | choosing | resting | releasing | ending | finished =>
      rw [want, hs] at hfit
      exact absurd hfit (by simp [LinkAnswer.fits])
  · exact accord_aside place h ho hw (fun r hr => ha ⟨r, hr⟩) ht hp

end Operation

/-! ### Deliveries -/

namespace Delivery

variable {d d' : Delivery} {w w' : Wire} {ph : Phase} {offered : List Frames} {a : LinkAnswer}
  {l : Link} {p : PreparedBatch}

/-- A delivery agrees with the socket when its operation does. -/
def Accord (w : Wire) (ph : Phase) (d : Delivery) : Prop :=
  d.Sound w.called ∧ d.operation.Accord w d.prepared.frames d.leg ph

theorem Accord.mono (h : d.Accord w ph) (hc : w.called = true → w'.called = true)
    (hs : w.Silent → w'.Silent) : d.Accord w' ph :=
  ⟨h.1.mono hc, h.2.mono hs⟩

/-- A delivery begins on a link that was not in use. -/
theorem accord_start (h : l.Rests w.called ph) (hu : w.under = none) :
    (start l p).next.Accord w ph := by
  refine ⟨sound_start w.called l p, Operation.accord_start ?_⟩
  rw [Link.Rests] at h
  cases hl : l.session with
  | none =>
    rw [hl] at h
    exact .inl ⟨rfl, rfl, h⟩
  | some s =>
    rw [hl] at h
    obtain ⟨hph, hcalled | ⟨hready, hmid⟩⟩ := h
    · exact .inr ⟨s, rfl, .inr ⟨⟨hcalled, hu⟩, hph⟩⟩
    · exact .inr ⟨s, rfl, .inl ⟨hready, hmid⟩⟩

/-- **Every answer keeps a delivery and the socket in accord**, and leaves the link to rest when the
delivery has ended. -/
theorem accord_turn (place : Nat) (h : d.Accord w ph) (hf : d.prepared.frames ∈ offered)
    (hw : w.InPhase offered ph) (hunder : ∀ c, w.under = some c → ∃ limit, d.want = .call c limit)
    (ht : d.Turn a d') (hp : w.possible d.want a = true) :
    ∃ ph', (w.note place a).InPhase offered ph' ∧
      ((d'.result = none ∧ d'.Accord (w.note place a) ph') ∨
        (d'.result.isSome = true ∧ d'.operation.link.Rests w.called ph')) := by
  obtain ⟨hd, haccord⟩ := h
  have hwant : d.want = d.operation.want := by rw [want, hd.result]
  have hcall := Wire.called_of_isCallOff hp
  rw [hwant] at hunder hp
  have hstep {o : Operation} (ho : d.operation.Turn a o) : ∃ ph', (w.note place a).InPhase offered ph' ∧
      o.Accord (w.note place a) d.prepared.frames d.leg ph' :=
    Operation.accord_turn place haccord hd.operation hd.goal hf hw hunder ho hp
  have hsound (hr : d'.result = none) : d'.Sound (w.note place a).called := by
    rw [Wire.called_note]
    rcases sound_turn ht hd hcall with hs | hs | ⟨f, hs, -⟩
    · exact hs
    · exact absurd (hr.symm.trans hs) (by simp)
    · exact absurd (hr.symm.trans hs) (by simp)
  cases ht with
  | ongoing ho hr =>
    obtain ⟨ph', hw', haccord'⟩ := hstep ho
    exact ⟨ph', hw', .inl ⟨hd.result, hsound hd.result, haccord'⟩⟩
  | nonceOut ho hr hl =>
    obtain ⟨ph', hw', haccord'⟩ := hstep ho
    obtain ⟨s, hs, hstands⟩ := haccord'.of_ok hr
    rw [hl] at hstands
    exact ⟨ph', hw', .inl ⟨rfl, hsound rfl, Operation.accord_start (.inr ⟨s, hs, .inl hstands⟩)⟩⟩
  | ciphertextOut ho hr hl =>
    obtain ⟨ph', hw', haccord'⟩ := hstep ho
    obtain ⟨s, hs, hstands⟩ := haccord'.of_ok hr
    rw [hl] at hstands
    exact ⟨ph', hw', .inl ⟨rfl, hsound rfl, Operation.accord_start (.inr ⟨s, hs, .inl hstands⟩)⟩⟩
  | replied ho hr hl =>
    obtain ⟨ph', hw', haccord'⟩ := hstep ho
    obtain ⟨s, hs, hready, hmid⟩ := haccord'.of_ok hr
    rw [hl] at hready hmid
    refine ⟨ph', hw', .inr ⟨rfl, ?_⟩⟩
    rw [Link.Rests, hs]
    exact ⟨by rw [hready]; exact (Leg.phase_ne _ _).1, .inr ⟨hready, hmid⟩⟩
  | cancelled ho hr =>
    obtain ⟨ph', hw', haccord'⟩ := hstep ho
    refine ⟨ph', hw', .inr ⟨rfl, ?_⟩⟩
    have hcalled : w.called = true := by
      rcases Operation.result_turn ho hd.operation (by rw [hd.goal]; exact goal_ne _ _) hcall hr with
        ⟨s, frame, reply, -, -, hno⟩ | ⟨f, hf, hc⟩
      · exact absurd hno (by simp)
      · exact hc (Except.error.inj hf).symm
    rw [hcalled]
    exact (haccord'.of_error hr).1 rfl
  | stranded ho hr =>
    obtain ⟨ph', hw', haccord'⟩ := hstep ho
    obtain ⟨hs, hclosed⟩ := (haccord'.of_error hr).2 (by simp)
    refine ⟨ph', hw', .inr ⟨rfl, ?_⟩⟩
    rw [Link.Rests, hs]
    exact hclosed
  | @retried o f ho hr hpass =>
    obtain ⟨ph', hw', haccord'⟩ := hstep ho
    have hfault : f ≠ .cancelled := by
      rintro rfl
      exact absurd hpass (by simp [LinkFault.isPassing])
    obtain ⟨hs, hclosed⟩ := (haccord'.of_error hr).2 hfault
    exact ⟨ph', hw', .inl ⟨rfl, hsound rfl, Operation.accord_start (.inl ⟨rfl, hs, hclosed⟩)⟩⟩

end Delivery

end LogRelay
