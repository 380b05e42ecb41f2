import LogRelay.Link.Operation

/-!
# The turns of an operation on a link

An operation goes on when what it wanted is answered.

* `Operation.Turn`, `turn_answer`: all that an answer of the wanted kind can lead to;
* `LinkAnswer.isCallOff`: the answers by which an operation learns that all was called off;
* `LinkFault.isPassing`: the faults after which it makes sense to try again;
* `Operation.Sound`, `sound_turn`: an operation is only ever broken off because all was called off,
  and what a lost session comes to is a fault that passes;
* `result_turn`: a sound operation succeeds when its call does, and otherwise fails soundly.
-/

namespace LogRelay

/-- Whether a call has failed or taken too long. -/
def Outcome.isFailure : Outcome → Bool
  | .failed _ | .expired => true
  | .done _ | .withheld | .abandoned => false

def Outcome.isCallOff : Outcome → Bool
  | .withheld | .abandoned => true
  | .done _ | .failed _ | .expired => false

/-- Whether an answer says that all was called off. -/
def LinkAnswer.isCallOff : LinkAnswer → Bool
  | .outcome o => o.isCallOff
  | .rested whole => !whole
  | .socket _ | .picked _ | .closed => false

/-- Why no socket could be opened. -/
def LinkAnswer.refusal? : LinkAnswer → Option SocketFault
  | socket (.error cause) => some cause
  | _ => none

/-- The call that an operation is to make in its session. -/
def Goal.call? : Goal → Option Call
  | send frame more => some (.send frame more)
  | receive => some .receive
  | ensure | close => none

/-- Whether a fault may be gone at the next attempt. -/
def LinkFault.isPassing : LinkFault → Bool
  | .timeout _ _ _ | .transport _ _ _ | .interrupted _ => true
  | .socket _ | .cancelled => false

namespace LinkAnswer

variable {a : LinkAnswer}

theorem eq_socket_of_fits (h : a.fits .socket = true) : ∃ r, a = .socket r := by
  cases a with
  | socket r => exact ⟨r, rfl⟩
  | picked | outcome | rested | closed => exact absurd h (by simp [fits])

theorem eq_picked_of_fits {among : AddressSet} (h : a.fits (.pick among) = true) :
    ∃ c, a = .picked c ∧ c ∈ among.addresses := by
  cases a with
  | picked c => exact ⟨c, rfl, by simpa [fits] using h⟩
  | socket | outcome | rested | closed => exact absurd h (by simp [fits])

theorem eq_outcome_of_fits {c : Call} {limit : Duration} (h : a.fits (.call c limit) = true) :
    ∃ r, a = .outcome r := by
  cases a with
  | outcome r => exact ⟨r, rfl⟩
  | socket | picked | rested | closed => exact absurd h (by simp [fits])

theorem eq_rested_of_fits {d : Duration} (h : a.fits (.rest d) = true) :
    ∃ whole, a = .rested whole := by
  cases a with
  | rested whole => exact ⟨whole, rfl⟩
  | socket | picked | outcome | closed => exact absurd h (by simp [fits])

theorem eq_closed_of_fits (h : a.fits .close = true) : a = .closed := by
  cases a with
  | closed => rfl
  | socket | picked | outcome | rested => exact absurd h (by simp [fits])

end LinkAnswer

namespace Operation

/-- What an answer of the wanted kind leads to.  After `sendFailed` the first frame of a message is
tried again; after `sendBroken` a later one is not, and the message is given up. -/
inductive Turn (o : Operation) : LinkAnswer → Operation → Prop where
  | opened (hs : o.stage = .opening) : Turn o (.socket (.ok ())) { o with stage := .choosing 0 }
  | refused (hs : o.stage = .opening) (cause : SocketFault) :
      Turn o (.socket (.error cause)) { o with stage := .finished (.error (.socket cause)) }
  | chosen {n : Nat} (hs : o.stage = .choosing n) {a : Address} (ha : a ∈ o.link.servers.addresses) :
      Turn o (.picked a)
        { o with link := { o.link with attempts := o.link.attempts + 1 }, stage := .connecting a n }
  | connected {a : Address} {n : Nat} (hs : o.stage = .connecting a n) (frame : Bytes) :
      Turn o (.outcome (.done frame))
        { o with
          link := { o.link with session := some ⟨a, false⟩, sessions := o.link.sessions + 1 }
          stage := stageWith ⟨a, false⟩ o.goal }
  | connectFailed {a : Address} {n : Nat} (hs : o.stage = .connecting a n) {r : Outcome}
      (hr : r.isFailure = true) : Turn o (.outcome r) { o with stage := .resting (Reconnect.tally (n + 1)) }
  | connectCancelled {a : Address} {n : Nat} (hs : o.stage = .connecting a n) {r : Outcome}
      (hr : r.isCallOff = true) : Turn o (.outcome r) { o with stage := .releasing }
  | rested {n : Nat} (hs : o.stage = .resting n) : Turn o (.rested true) { o with stage := .choosing n }
  | restCancelled {n : Nat} (hs : o.stage = .resting n) :
      Turn o (.rested false) { o with stage := .releasing }
  | released (hs : o.stage = .releasing) : Turn o .closed { o with stage := .finished (.error .cancelled) }
  | sent {s : Session} {frame : Bytes} {more : Bool} (hs : o.stage = .using s)
      (hg : o.goal = .send frame more) (ignored : Bytes) :
      Turn o (.outcome (.done ignored))
        { o with
          link := { o.link with session := some { s with midMessage := more } }
          stage := .finished (.ok []) }
  | sendFailed {s : Session} {frame : Bytes} {more : Bool} (hs : o.stage = .using s)
      (hg : o.goal = .send frame more) (hm : s.midMessage = false) {r : Outcome}
      (hr : r.isFailure = true) :
      Turn o (.outcome r) { o with link := { o.link with session := none }, stage := .ending .again }
  | sendBroken {s : Session} {frame : Bytes} {more : Bool} (hs : o.stage = .using s)
      (hg : o.goal = .send frame more) (hm : s.midMessage = true) {r : Outcome}
      (hr : r.isFailure = true)
      (notices : List LinkNotice) :
      Turn o (.outcome r)
        { o with
          link := { o.link with session := none }
          stage := .ending (.stop notices (.error (.interrupted s.address))) }
  | received {s : Session} (hs : o.stage = .using s) (hg : o.goal = .receive) (reply : Bytes) :
      Turn o (.outcome (.done reply))
        { o with
          link := { o.link with session := some { s with midMessage := false } }
          stage := .finished (.ok reply) }
  | receiveFailed {s : Session} (hs : o.stage = .using s) (hg : o.goal = .receive) {r : Outcome}
      (hr : r.isFailure = true) (notices : List LinkNotice) {f : LinkFault} (hf : f.isPassing = true) :
      Turn o (.outcome r)
        { o with link := { o.link with session := none }, stage := .ending (.stop notices (.error f)) }
  | useCancelled {s : Session} (hs : o.stage = .using s) {r : Outcome} (hr : r.isCallOff = true) :
      Turn o (.outcome r) { o with stage := .finished (.error .cancelled) }
  | renewed (hs : o.stage = .ending .again) : Turn o .closed { o with stage := .opening }
  | ended {notices : List LinkNotice} {r : LinkResult} (hs : o.stage = .ending (.stop notices r)) :
      Turn o .closed { o with stage := .finished r }

variable {o o' : Operation} {a : LinkAnswer}

theorem turn_connecting {c : Address} {n : Nat} {r : Outcome} (hs : o.stage = .connecting c n) :
    o.Turn (.outcome r) (o.answer (.outcome r)).next := by
  have hanswer : (o.answer (.outcome r)).next = (o.answerConnect c n r).next := by
    simp only [answer, hs]
  rw [hanswer]
  cases r with
  | done frame => exact .connected hs frame
  | failed cause => exact .connectFailed hs rfl
  | expired => exact .connectFailed hs rfl
  | withheld => exact .connectCancelled hs rfl
  | abandoned => exact .connectCancelled hs rfl

theorem turn_sending {s : Session} {frame : Bytes} {more : Bool} {r : Outcome} (hs : o.stage = .using s)
    (hg : o.goal = .send frame more) : o.Turn (.outcome r) (o.answer (.outcome r)).next := by
  have hanswer : (o.answer (.outcome r)).next = (o.answerSend s frame more r).next := by
    simp only [answer, hs, hg]
  rw [hanswer]
  cases r with
  | done ignored => exact .sent hs hg ignored
  | failed cause =>
    simp only [answerSend, failSend, endSession]
    cases hm : s.midMessage with
    | true => exact .sendBroken hs hg hm rfl _
    | false => exact .sendFailed hs hg hm rfl
  | expired =>
    simp only [answerSend, failSend, endSession]
    cases hm : s.midMessage with
    | true => exact .sendBroken hs hg hm rfl _
    | false => exact .sendFailed hs hg hm rfl
  | withheld => exact .useCancelled hs rfl
  | abandoned => exact .useCancelled hs rfl

theorem turn_receiving {s : Session} {r : Outcome} (hs : o.stage = .using s) (hg : o.goal = .receive) :
    o.Turn (.outcome r) (o.answer (.outcome r)).next := by
  have hanswer : (o.answer (.outcome r)).next = (o.answerReceive s r).next := by
    simp only [answer, hs, hg]
  rw [hanswer]
  cases r with
  | done reply => exact .received hs hg reply
  | failed cause => exact .receiveFailed hs hg rfl _ rfl
  | expired => exact .receiveFailed hs hg rfl _ rfl
  | withheld => exact .useCancelled hs rfl
  | abandoned => exact .useCancelled hs rfl

/-- **An answer of the wanted kind is one of the turns above.** -/
theorem turn_answer (h : a.fits o.want = true) : o.Turn a (o.answer a).next := by
  cases hs : o.stage with
  | opening =>
    rw [want, hs] at h
    obtain ⟨r, rfl⟩ := LinkAnswer.eq_socket_of_fits h
    simp only [answer, hs]
    cases r with
    | ok u => exact .opened hs
    | error cause => exact .refused hs cause
  | choosing n =>
    rw [want, hs] at h
    obtain ⟨c, rfl, hc⟩ := LinkAnswer.eq_picked_of_fits h
    simp only [answer, hs]
    exact .chosen hs hc
  | connecting c n =>
    rw [want, hs] at h
    obtain ⟨r, rfl⟩ := LinkAnswer.eq_outcome_of_fits h
    exact turn_connecting hs
  | resting n =>
    rw [want, hs] at h
    obtain ⟨whole, rfl⟩ := LinkAnswer.eq_rested_of_fits h
    simp only [answer, hs]
    cases whole with
    | true => exact .rested hs
    | false => exact .restCancelled hs
  | releasing =>
    rw [want, hs] at h
    obtain rfl := LinkAnswer.eq_closed_of_fits h
    simp only [answer, hs]
    exact .released hs
  | «using» s =>
    rw [want, hs] at h
    cases hg : o.goal with
    | ensure | close => rw [hg] at h; exact absurd h (by cases a <;> simp [callOf, LinkAnswer.fits])
    | send frame more =>
      rw [hg] at h
      obtain ⟨r, rfl⟩ := LinkAnswer.eq_outcome_of_fits h
      exact turn_sending hs hg
    | receive =>
      rw [hg] at h
      obtain ⟨r, rfl⟩ := LinkAnswer.eq_outcome_of_fits h
      exact turn_receiving hs hg
  | ending next =>
    rw [want, hs] at h
    obtain rfl := LinkAnswer.eq_closed_of_fits h
    cases next with
    | again => simp only [answer, hs]; exact .renewed hs
    | stop notices r => simp only [answer, hs]; exact .ended hs
  | finished r =>
    rw [want, hs] at h
    exact absurd h (by cases a <;> simp [LinkAnswer.fits])

theorem stage_of_result? {r : LinkResult} (h : o.result? = some r) : o.stage = .finished r := by
  rw [Operation.result?] at h
  cases hs : o.stage with
  | finished r' =>
    rw [hs] at h
    exact congrArg Stage.finished (Option.some.inj h)
  | opening | choosing | connecting | resting | releasing | «using» | ending =>
    rw [hs] at h
    exact absurd h (by simp)

/-- The call that an operation makes in its session. -/
theorem want_of_using {s : Session} {c : Call} (hg : o.goal.call? = some c) (hs : o.stage = .using s) :
    ∃ limit, o.want = .call c limit := by
  rw [Operation.want, hs]
  cases ho : o.goal with
  | ensure | close => rw [ho] at hg; exact absurd hg (by simp [Goal.call?])
  | send frame more => rw [ho] at hg; exact ⟨_, by rw [← Option.some.inj hg]; rfl⟩
  | receive => rw [ho] at hg; exact ⟨_, by rw [← Option.some.inj hg]; rfl⟩

/-! ### Operations that need a session -/

/-- An operation other than closing: it is broken off only because all was called off, and the loss of a
session comes to a fault that passes. -/
structure Sound (called : Bool) (o : Operation) : Prop where
  /-- A socket that never got connected is only ever released because all was called off. -/
  releasing : o.stage = .releasing → called = true
  /-- What follows a lost session for good is a fault that passes. -/
  ending : ∀ {notices r}, o.stage = .ending (.stop notices r) → ∃ f : LinkFault, r = .error f ∧
    f.isPassing = true

/-- A result that is no frame: it is a fault that passes, or there is no socket to be had, or all
was called off. -/
def FailsSoundly (called : Bool) (r : LinkResult) : Prop :=
  ∃ f : LinkFault, r = .error f ∧ (f = .cancelled → called = true)

theorem start_of_none {l : Link} {g : Goal} (hl : l.session = none) :
    (start l g).next = ⟨l, g, stageWithout g⟩ := by
  simp only [start, hl]

theorem start_of_some {l : Link} {g : Goal} {s : Session} (hl : l.session = some s) (hg : g ≠ .close) :
    (start l g).next = ⟨l, g, stageWith s g⟩ := by
  cases g with
  | close => exact absurd rfl hg
  | ensure | send | receive => simp only [start, hl]

theorem start_close_of_some {l : Link} {s : Session} (hl : l.session = some s) :
    (start l .close).next = ⟨{ l with session := none }, .close, .ending (.stop [] (.ok []))⟩ := by
  simp only [start, hl, endSession]

/-- An operation begins without a session, or gives up the session that it is to close, or has a session. -/
theorem start_cases (l : Link) (g : Goal) :
    (l.session = none ∧ (start l g).next = ⟨l, g, stageWithout g⟩) ∨
    (∃ s, l.session = some s ∧ g = .close ∧
      (start l g).next = ⟨{ l with session := none }, .close, .ending (.stop [] (.ok []))⟩) ∨
    ∃ s, l.session = some s ∧ g ≠ .close ∧ (start l g).next = ⟨l, g, stageWith s g⟩ := by
  cases hl : l.session with
  | none => exact .inl ⟨rfl, start_of_none hl⟩
  | some s =>
    by_cases hg : g = .close
    · subst hg
      exact .inr (.inl ⟨s, rfl, rfl, start_close_of_some hl⟩)
    · exact .inr (.inr ⟨s, rfl, hg, start_of_some hl hg⟩)

theorem sound_start {called : Bool} (l : Link) {g : Goal} (hg : g ≠ .close) :
    (start l g).next.Sound called := by
  cases hl : l.session with
  | none =>
    rw [start_of_none hl]
    cases g with
    | close => exact absurd rfl hg
    | ensure | send | receive => exact ⟨by simp [stageWithout], by simp [stageWithout]⟩
  | some s =>
    rw [start_of_some hl hg]
    cases g with
    | close => exact absurd rfl hg
    | ensure | send | receive => exact ⟨by simp [stageWith], by simp [stageWith]⟩

theorem Sound.mono {called called' : Bool} (h : o.Sound called) (hc : called = true → called' = true) :
    o.Sound called' :=
  ⟨fun hs => hc (h.releasing hs), h.ending⟩

theorem goal_turn (h : o.Turn a o') : o'.goal = o.goal := by
  cases h <;> rfl

theorem limits_turn (h : o.Turn a o') : o'.link.limits = o.link.limits := by
  cases h <;> rfl

/-- An operation stays sound as long as it is told that all was called off only when it was. -/
theorem sound_turn {called : Bool} (h : o.Turn a o') (hg : o.goal ≠ .close)
    (ha : a.isCallOff = true → called = true) : o'.Sound called := by
  cases h with
  | connectCancelled hs hr => exact ⟨fun _ => ha hr, by simp⟩
  | restCancelled hs => exact ⟨fun _ => ha rfl, by simp⟩
  | sendBroken hs hgoal hm hr notices =>
    refine ⟨by simp, fun he => ?_⟩
    obtain ⟨-, rfl⟩ := Sequel.stop.inj (Stage.ending.inj he)
    exact ⟨_, rfl, rfl⟩
  | receiveFailed hs hgoal hr notices hf =>
    refine ⟨by simp, fun he => ?_⟩
    obtain ⟨-, rfl⟩ := Sequel.stop.inj (Stage.ending.inj he)
    exact ⟨_, rfl, hf⟩
  | connected hs frame =>
    cases hgoal : o.goal with
    | close => exact absurd hgoal hg
    | ensure | send | receive => exact ⟨by simp [stageWith], by simp [stageWith]⟩
  | opened | refused | chosen | connectFailed | rested | released | sent | sendFailed | received
  | useCancelled | renewed | ended => exact ⟨by simp, by simp⟩

/-- A sound operation succeeds when its call does, and otherwise fails soundly. -/
theorem result_turn {called : Bool} {r : LinkResult} (h : o.Turn a o') (ho : o.Sound called)
    (hg : o.goal ≠ .ensure ∧ o.goal ≠ .close) (ha : a.isCallOff = true → called = true)
    (hr : o'.result? = some r) :
    (∃ s frame reply, o.stage = .using s ∧ a = .outcome (.done frame) ∧ r = .ok reply) ∨
    FailsSoundly called r := by
  cases h with
  | refused hs cause =>
    obtain rfl := Option.some.inj hr
    exact .inr ⟨_, rfl, by simp⟩
  | released hs =>
    obtain rfl := Option.some.inj hr
    exact .inr ⟨_, rfl, fun _ => ho.releasing hs⟩
  | sent hs hgoal ignored =>
    obtain rfl := Option.some.inj hr
    exact .inl ⟨_, _, _, hs, rfl, rfl⟩
  | received hs hgoal reply =>
    obtain rfl := Option.some.inj hr
    exact .inl ⟨_, _, _, hs, rfl, rfl⟩
  | useCancelled hs hc =>
    obtain rfl := Option.some.inj hr
    exact .inr ⟨_, rfl, fun _ => ha hc⟩
  | ended hs =>
    obtain rfl := Option.some.inj hr
    obtain ⟨f, rfl, hf⟩ := ho.ending hs
    exact .inr ⟨f, rfl, fun hcancel => absurd hf (by simp [hcancel, LinkFault.isPassing])⟩
  | connected hs frame =>
    cases hgoal : o.goal with
    | ensure => exact absurd hgoal hg.1
    | close => exact absurd hgoal hg.2
    | send | receive => simp [result?, stageWith, hgoal] at hr
  | opened | chosen | connectFailed | connectCancelled | rested | restCancelled | sendFailed | sendBroken
  | receiveFailed | renewed => simp [result?] at hr

/-- There is no socket to be had only if one was asked for in vain. -/
theorem refusal_turn {called : Bool} {cause : SocketFault} (h : o.Turn a o') (ho : o.Sound called)
    (hr : o'.result? = some (.error (.socket cause))) : a = .socket (.error cause) := by
  cases h with
  | refused hs cause' =>
    obtain rfl : cause' = cause := by simpa [result?] using hr
    rfl
  | connected hs frame => cases hg : o.goal <;> simp [result?, stageWith, hg] at hr
  | ended hs =>
    obtain rfl := Option.some.inj hr
    obtain ⟨f, hf, hpassing⟩ := ho.ending hs
    obtain rfl := Except.error.inj hf
    exact absurd hpassing (by simp [LinkFault.isPassing])
  | opened | chosen | connectFailed | connectCancelled | rested | restCancelled | released | sent | sendFailed
  | sendBroken | received | receiveFailed | useCancelled | renewed => simp [result?] at hr

/-! ### Waiting for a reply -/

theorem using_of_want_receive {limit : Duration} (h : o.want = .call .receive limit) :
    ∃ s, o.stage = .using s ∧ o.goal = .receive := by
  rw [want] at h
  cases hs : o.stage with
  | «using» s =>
    rw [hs] at h
    cases hg : o.goal with
    | receive => exact ⟨s, rfl, rfl⟩
    | ensure | send | close =>
      rw [hg] at h
      exact absurd h (by simp [callOf])
  | opening | choosing | connecting | resting | releasing | ending | finished =>
    rw [hs] at h
    exact absurd h (by simp)

theorem result?_of_received {s : Session} {reply : Bytes} (hs : o.stage = .using s)
    (hg : o.goal = .receive)
    (h : o.Turn (.outcome (.done reply)) o') : o'.result? = some (.ok reply) := by
  cases h with
  | received => rfl
  | connected hc => exact absurd (hs.symm.trans hc) (by simp)
  | sent hu hgoal => exact absurd (hg.symm.trans hgoal) (by simp)
  | connectFailed _ hr | sendFailed _ _ _ hr | sendBroken _ _ _ hr | receiveFailed _ _ hr =>
    exact absurd hr (by simp [Outcome.isFailure])
  | connectCancelled _ hr | useCancelled _ hr => exact absurd hr (by simp [Outcome.isCallOff])

end Operation

end LogRelay
