import LogRelay.Proofs.Link.Happening
import LogRelay.Proofs.Wire.Steps

/-!
# What a link counts and remembers

A `Chronicle` keeps all that has happened to a link since it was made, while operations were asked for one after
the other and each came to its end.  What the link counts and remembers can be read from it.

* `Operation.Seated`, `Operation.live`: the session at each stage, and the number of open sockets;
* `Operation.live_turn`, `mark?_turn`, `sessions_turn`, `attempts_turn`, `waiting_turn`: what an answer does to the
  sockets, to the session and to each count;
* `Chronicle.move?`, `Chronicle.run?`: steps and runs of whoever uses a link;
* `Chronicle.Adds`, `exists_adds`: what one step adds to what has happened, and what it does to the link;
* `Chronicle.Kept`, `kept_move?`, `kept_run?`: the link agrees with what has happened;
* `Chronicle.link_agrees_with_happened`: **no socket is left open but that of the session, there is a
  session exactly since the last success in connecting, and all counts are right.**
-/

namespace LogRelay

/-! ### What an answer does -/

namespace Operation

/-- At each stage, whether there is a session. -/
def Seated (o : Operation) : Prop :=
  match o.stage with
  | .opening | .choosing _ | .connecting _ _ | .resting _ | .ending .again =>
    o.link.session = none ∧ o.goal ≠ .close
  | .releasing | .ending (.stop _ _) => o.link.session = none
  | .using s => o.link.session = some s
  | .finished _ => True

/-- The number of open sockets at each stage. -/
def live (o : Operation) : Nat :=
  match o.stage with
  | .opening => 0
  | .choosing _ | .connecting _ _ | .resting _ | .releasing | .using _ | .ending _ => 1
  | .finished _ => if o.link.isConnected then 1 else 0

variable {o o' : Operation} {a : LinkAnswer} {l : Link} {g : Goal}

theorem live_of_finished {r : LinkResult} (hs : o.stage = .finished r) :
    o.live = if o.link.isConnected then 1 else 0 := by
  rw [live, hs]

theorem live_le_one (o : Operation) : o.live ≤ 1 := by
  rw [live]
  cases o.stage with
  | opening => exact Nat.zero_le 1
  | finished => cases o.link.isConnected <;> simp
  | choosing | connecting | resting | releasing | «using» | ending => exact Nat.le_refl 1

theorem seated_start (l : Link) (g : Goal) : (start l g).next.Seated := by
  rcases start_cases l g with ⟨hl, hstart⟩ | ⟨s, hl, -, hstart⟩ | ⟨s, hl, hg, hstart⟩
  · rw [hstart]
    cases g with
    | close => trivial
    | ensure | send | receive => exact ⟨hl, by simp⟩
  · rw [hstart]
    rfl
  · rw [hstart]
    cases g with
    | close => exact absurd rfl hg
    | ensure => trivial
    | send | receive => exact hl

theorem seated_turn (h : o.Turn a o') (ho : o.Seated) : o'.Seated := by
  rw [Seated] at ho
  cases h with
  | opened hs | chosen hs | connectFailed hs | rested hs =>
    rw [hs] at ho
    exact ho
  | connectCancelled hs | restCancelled hs =>
    rw [hs] at ho
    exact ho.1
  | connected hs frame =>
    rw [hs] at ho
    cases hg : o.goal with
    | close => exact absurd hg ho.2
    | ensure => trivial
    | send | receive => rfl
  | sendFailed hs hg => exact ⟨rfl, by simp [hg]⟩
  | sendBroken | receiveFailed => rfl
  | renewed hs =>
    rw [hs] at ho
    exact ho
  | refused | released | sent | received | useCancelled | ended => trivial

/-- To ask for an operation opens no socket, and closes none. -/
theorem live_start (l : Link) (g : Goal) : (start l g).next.live = if l.isConnected then 1 else 0 := by
  have hconnected : l.isConnected = l.session.isSome := rfl
  rcases start_cases l g with ⟨hl, hstart⟩ | ⟨s, hl, -, hstart⟩ | ⟨s, hl, hg, hstart⟩
  · rw [hstart]
    cases g with
    | close => rfl
    | ensure | send | receive =>
      rw [hconnected, hl]
      rfl
  · rw [hstart, hconnected, hl]
    rfl
  · rw [hstart]
    cases g with
    | close => exact absurd rfl hg
    | ensure => rfl
    | send | receive =>
      rw [hconnected, hl]
      rfl

/-- The happening that an answer makes. -/
def happening (o o' : Operation) (a : LinkAnswer) : Happening := .answered o.want a o'.result?

/-- **An answer opens and closes as many sockets as the stage says.** -/
theorem live_turn (h : o.Turn a o') (ho : o.Seated) :
    o'.live + (o.happening o' a).closes.toNat = o.live + (o.happening o' a).opens.toNat := by
  rw [Seated] at ho
  cases h with
  | opened hs | chosen hs | connectFailed hs | connectCancelled hs | rested hs | restCancelled hs
  | sendFailed hs | sendBroken hs | receiveFailed hs | renewed hs =>
    simp [live, hs, happening, Happening.opens, Happening.closes]
  | refused hs cause =>
    rw [hs] at ho
    simp [live, hs, happening, Happening.opens, Happening.closes, Link.isConnected, ho.1]
  | connected hs frame =>
    rw [hs] at ho
    cases hg : o.goal with
    | close => exact absurd hg ho.2
    | ensure | send | receive =>
      simp [live, hs, happening, Happening.opens, Happening.closes, Link.isConnected, stageWith]
  | released hs | ended hs =>
    rw [hs] at ho
    simp [live, hs, happening, Happening.opens, Happening.closes, Link.isConnected, ho]
  | sent hs | received hs =>
    simp [live, hs, happening, Happening.opens, Happening.closes, Link.isConnected]
  | useCancelled hs =>
    rw [hs] at ho
    simp [live, hs, happening, Happening.opens, Happening.closes, Link.isConnected, ho]

/-- Whether the session is in the middle of a message, if there is one. -/
def mark? (o : Operation) : Option Bool := o.link.session.map Session.midMessage

/-- **An answer does to the session what can be read from it.** -/
theorem mark?_turn (h : o.Turn a o') (ho : o.Seated) : o'.mark? = (o.happening o' a).sessionAfter o.mark? := by
  rw [Seated] at ho
  cases h with
  | opened hs | refused hs | chosen hs | rested hs | restCancelled hs | released hs | renewed hs | ended hs =>
    rw [happening, want, hs]
    rfl
  | connected hs frame =>
    rw [happening, want, hs]
    rfl
  | connectFailed hs hr =>
    rw [hs] at ho
    rw [happening, Happening.sessionAfter_of_isFailure hr, mark?, ho.1]
    rfl
  | connectCancelled hs hr | useCancelled hs hr =>
    rw [happening, Happening.sessionAfter_of_isCallOff hr]
    rfl
  | @sent s frame more hs hg =>
    rw [hs] at ho
    have hwant : o.want = .call (.send frame more) o.link.limits.send := by rw [want, hs, hg]; rfl
    have hmark : o.mark? = some s.midMessage := by rw [mark?, ho]; rfl
    rw [happening, hwant, hmark]
    cases more <;> rfl
  | @received s hs hg =>
    rw [hs] at ho
    have hwant : o.want = .call .receive o.link.limits.receive := by rw [want, hs, hg]; rfl
    have hmark : o.mark? = some s.midMessage := by rw [mark?, ho]; rfl
    rw [happening, hwant, hmark]
    rfl
  | sendFailed hs hg hm hr | sendBroken hs hg hm hr | receiveFailed hs hg hr =>
    rw [happening, Happening.sessionAfter_of_isFailure hr]
    rfl

/-- One more session is counted when an attempt to connect succeeds. -/
theorem sessions_turn (h : o.Turn a o') :
    o'.link.sessions = o.link.sessions + (o.happening o' a).connects.toNat := by
  cases h with
  | connected hs frame =>
    rw [happening, want, hs]
    rfl
  | opened hs | refused hs | chosen hs | rested hs | restCancelled hs | released hs | renewed hs | ended hs =>
    rw [happening, want, hs]
    rfl
  | connectFailed hs hr | sendFailed hs hg hm hr | sendBroken hs hg hm hr | receiveFailed hs hg hr
  | connectCancelled hs hr | useCancelled hs hr =>
    rw [happening, Happening.connects_of_not_done _ (by rintro _ rfl; exact absurd hr Bool.false_ne_true)]
    rfl
  | sent hs hg | received hs hg =>
    rw [happening, want, hs, hg]
    rfl

/-- One more attempt is counted when a collector is chosen. -/
theorem attempts_turn (h : o.Turn a o') :
    o'.link.attempts = o.link.attempts + (o.happening o' a).picks.toNat := by
  cases h <;> rfl

/-- The attempts for which a collector was chosen and that have neither begun nor been held back. -/
def waiting (o : Operation) (under : Option Call) : Nat :=
  match o.stage with
  | .connecting _ _ => if under.isNone then 1 else 0
  | _ => 0

theorem waiting_start (l : Link) (g : Goal) (under : Option Call) : (start l g).next.waiting under = 0 := by
  rcases start_cases l g with ⟨-, hstart⟩ | ⟨s, -, -, hstart⟩ | ⟨s, -, -, hstart⟩
  · rw [hstart]
    cases g <;> rfl
  · rw [hstart]
    rfl
  · rw [hstart]
    cases g <;> rfl

theorem waiting_connecting {c : Address} {n : Nat} (hs : o.stage = .connecting c n) (k : Call) :
    o.waiting (some k) = 0 := by
  rw [waiting, hs]
  rfl

/-- No attempt to connect is held back while there is a session. -/
theorem holdsBack_of_using {s : Session} (hs : o.stage = .using s) (a : LinkAnswer) (r : Option LinkResult) :
    (Happening.answered o.want a r).holdsBack = false := by
  rw [want, hs]
  cases o.goal <;> rfl

/-- **An attempt for which a collector was chosen begins or is held back.** -/
theorem waiting_turn {w : Wire} (h : o.Turn a o') (hp : w.possible o.want a = true) :
    o'.waiting none + (o.happening o' a).holdsBack.toNat
      = o.waiting w.under + (o.happening o' a).picks.toNat := by
  cases h with
  | opened hs | refused hs | chosen hs | rested hs | restCancelled hs | released hs | renewed hs | ended hs =>
    simp [waiting, happening, want, hs, Happening.holdsBack, Happening.picks]
  | connected hs frame =>
    obtain ⟨-, k, hu⟩ := Wire.of_possible_done hp
    rw [hu, waiting_connecting hs, happening, want, hs]
    cases hg : o.goal <;> rfl
  | @connectFailed c n hs r hr =>
    rcases Wire.of_possible_outcome hp with ⟨-, -, k, hu⟩ | ⟨-, rfl, -⟩ | ⟨-, rfl, -⟩
    · rw [hu, waiting_connecting hs, happening, want, hs]
      cases r with
      | failed cause => rfl
      | expired => rfl
      | done | withheld | abandoned => exact absurd hr Bool.false_ne_true
    · exact absurd hr Bool.false_ne_true
    · exact absurd hr Bool.false_ne_true
  | connectCancelled hs hr =>
    rcases Wire.of_possible_outcome hp with ⟨-, hno, -⟩ | ⟨-, rfl, hu⟩ | ⟨-, rfl, k, hu⟩
    · exact absurd hr (by simp [hno])
    · rw [hu, waiting, waiting, hs, happening, want, hs]
      rfl
    · rw [hu, waiting_connecting hs, happening, want, hs]
      rfl
  | sent hs | received hs | sendFailed hs | sendBroken hs | receiveFailed hs | useCancelled hs =>
    rw [happening, holdsBack_of_using hs, waiting, waiting, hs]
    rfl

/-- An attempt for which a collector was chosen begins when its call does. -/
theorem waiting_call {k : Call} {limit : Duration} (hwant : o.want = .call k limit) :
    o.waiting (some k) + (Happening.began k).dials.toNat = o.waiting none := by
  rw [want] at hwant
  rw [waiting, waiting]
  cases hs : o.stage with
  | connecting c n =>
    rw [hs] at hwant
    obtain ⟨rfl, -⟩ := LinkWant.call.inj hwant
    rfl
  | «using» s =>
    rw [hs] at hwant
    cases hg : o.goal with
    | ensure | close =>
      rw [hg] at hwant
      exact absurd hwant (by simp [callOf])
    | send | receive =>
      rw [hg] at hwant
      obtain ⟨rfl, -⟩ := LinkWant.call.inj hwant
      rfl
  | opening | choosing | resting | releasing | ending | finished =>
    rw [hs] at hwant
    exact absurd hwant (by simp)

/-- When an attempt is held back, its socket is to be closed. -/
theorem releasing_of_holdsBack (h : o.Turn a o') (hheld : (o.happening o' a).holdsBack = true) :
    a = .outcome .withheld ∧ o'.stage = .releasing := by
  have ha : a = .outcome .withheld := by
    unfold happening Happening.holdsBack at hheld
    split at hheld
    next hcase => exact (Happening.answered.inj hcase).2.1
    next => exact absurd hheld Bool.false_ne_true
  subst ha
  cases h with
  | connectCancelled hs hr => exact ⟨rfl, rfl⟩
  | useCancelled hs hr =>
    rw [happening, holdsBack_of_using hs] at hheld
    exact absurd hheld Bool.false_ne_true
  | connectFailed hs hr | sendFailed hs hg hm hr | sendBroken hs hg hm hr | receiveFailed hs hg hr =>
    exact absurd hr Bool.false_ne_true

theorem givesUp_of_releasing (h : o.Turn a o') (hstage : o.stage = .releasing) :
    (o.happening o' a).givesUp = true := by
  cases h with
  | released hs =>
    rw [happening, want, hs]
    rfl
  | opened hs | refused hs | chosen hs | connected hs | connectFailed hs | connectCancelled hs | rested hs
  | restCancelled hs | sent hs | sendFailed hs | sendBroken hs | received hs | receiveFailed hs
  | useCancelled hs | renewed hs | ended hs => exact absurd (hstage.symm.trans hs) (by simp)

theorem mark?_start (l : Link) (g : Goal) :
    (start l g).next.mark? = (Happening.asked g).sessionAfter (l.session.map Session.midMessage) := by
  rcases start_cases l g with ⟨hl, hstart⟩ | ⟨s, -, rfl, hstart⟩ | ⟨s, -, hg, hstart⟩
  · rw [hstart, mark?, hl]
    cases g <;> rfl
  · rw [hstart]
    rfl
  · rw [hstart]
    cases g with
    | close => exact absurd rfl hg
    | ensure | send | receive => rfl

/-- To ask for an operation counts for nothing. -/
theorem counts_start (l : Link) (g : Goal) :
    (start l g).next.link.sessions = l.sessions ∧ (start l g).next.link.attempts = l.attempts := by
  rcases start_cases l g with ⟨-, hstart⟩ | ⟨s, -, -, hstart⟩ | ⟨s, -, -, hstart⟩
  all_goals
    rw [hstart]
    exact ⟨rfl, rfl⟩

end Operation

/-! ### Whoever uses a link -/

theorem Wire.under_of_begin? {w w' : Wire} {want : LinkWant} (h : w.begin? want = some w') : w.under = none := by
  unfold begin? at h
  split at h
  next =>
    split at h
    · exact absurd h (by simp)
    next hfree =>
      rw [Bool.or_eq_true, not_or, Bool.not_eq_true, Option.not_isSome_iff_eq_none] at hfree
      exact hfree.2
  next => exact absurd h (by simp)

/-- A link in use, with the operation that was asked for last, the sockets, and all that has happened, the first
thing first. -/
structure Chronicle where
  operation : Operation
  wire : Wire := {}
  happened : List Happening := []

namespace Chronicle

/-- An operation is asked for, or something happens at the sockets. -/
inductive Move where
  | ask (g : Goal)
  | wire (m : Wire.Step)

/-- A link that was just made, as after an operation that has ended. -/
def start (l : Link) : Chronicle := { operation := ⟨l, .close, .finished (.ok [])⟩ }

/-- What comes of a step, if it is possible.  An operation can be asked for when the last has ended. -/
def move? (c : Chronicle) : Move → Option Chronicle
  | .ask g =>
    if c.operation.result?.isSome then
      some { c with
        operation := (Operation.start c.operation.link g).next
        happened := c.happened ++ [.asked g] }
    else none
  | .wire m =>
    (c.wire.step? c.operation.want m).map fun wire =>
      match m with
      | .callOff => { c with wire, happened := c.happened ++ [.calledOff] }
      | .call => { c with wire, happened := c.happened ++ (wire.under.map .began).toList }
      | .link a =>
        let next := (c.operation.answer a).next
        { operation := next, wire, happened := c.happened ++ [c.operation.happening next a] }

/-- What comes of several steps, if each is possible. -/
abbrev run? : Chronicle → List Move → Option Chronicle := runSteps move?

/-- How often something has happened. -/
def count (c : Chronicle) (p : Happening → Bool) : Nat := c.happened.countP p

/-- Nothing but that all is called off happens before an operation ends for that reason. -/
def GivesUp (es : List Happening) : Prop :=
  ∃ before e after, es = before ++ e :: after ∧ e.givesUp = true ∧ ∀ e' ∈ before, e' = .calledOff

/-- What one more thing that happens does to a link and its sockets. -/
structure Adds (c : Chronicle) (e : Happening) (c' : Chronicle) : Prop where
  happened : c'.happened = c.happened ++ [e]
  awaits : c'.wire.Awaits c'.operation.want
  seated : c'.operation.Seated
  called : c'.wire.called = true → c.wire.called = true ∨ e = .calledOff
  live : c'.operation.live + e.closes.toNat = c.operation.live + e.opens.toNat
  mark : c'.operation.mark? = e.sessionAfter c.operation.mark?
  sessions : c'.operation.link.sessions = c.operation.link.sessions + e.connects.toNat
  attempts : c'.operation.link.attempts = c.operation.link.attempts + e.picks.toNat
  waiting : c'.operation.waiting c'.wire.under + e.dials.toNat + e.holdsBack.toNat
    = c.operation.waiting c.wire.under + e.picks.toNat
  /-- An attempt is held back only after all was called off, and its socket is to be closed. -/
  holding : e.holdsBack = true → c.wire.called = true ∧ c'.operation.stage = .releasing
  /-- When a socket is to be closed that never got connected, there is nothing else to do. -/
  releasing : c.operation.stage = .releasing →
    e.givesUp = true ∨ (e = .calledOff ∧ c'.operation.stage = .releasing)

/-- The link agrees with what has happened. -/
structure Kept (c : Chronicle) : Prop where
  awaits : c.wire.Awaits c.operation.want
  seated : c.operation.Seated
  called : c.wire.called = true → .calledOff ∈ c.happened
  sockets : c.count Happening.opens = c.count Happening.closes + c.operation.live
  mark : c.operation.mark? = replay c.happened
  sessions : c.operation.link.sessions = c.count Happening.connects
  picks : c.operation.link.attempts = c.count Happening.picks
  attempts : c.count Happening.dials + c.count Happening.holdsBack + c.operation.waiting c.wire.under
    = c.count Happening.picks
  /-- When an attempt is held back, the operation does not go on but to close the socket. -/
  heldBack : ∀ before e after, c.happened = before ++ e :: after → e.holdsBack = true →
    .calledOff ∈ before ∧ (GivesUp after ∨ (c.operation.stage = .releasing ∧ ∀ e' ∈ after, e' = .calledOff))

variable {c c' : Chronicle} {g : Goal} {m : Wire.Step} {a : LinkAnswer} {e : Happening} {es : List Happening}

theorem GivesUp.append (h : GivesUp es) (es' : List Happening) : GivesUp (es ++ es') := by
  obtain ⟨before, e, after, rfl, he, hbefore⟩ := h
  exact ⟨before, e, after ++ es', by simp, he, hbefore⟩

theorem count_concat (h : c'.happened = c.happened ++ [e]) (p : Happening → Bool) :
    c'.count p = c.count p + (p e).toNat := by
  rw [count, count, h, List.countP_append, List.countP_singleton]
  cases p e <;> rfl

theorem of_move?_ask (h : c.move? (.ask g) = some c') :
    (∃ r, c.operation.stage = .finished r) ∧
      c' = { c with
        operation := (Operation.start c.operation.link g).next
        happened := c.happened ++ [.asked g] } := by
  rw [move?] at h
  split at h
  next hended =>
    obtain ⟨r, hr⟩ := Option.isSome_iff_exists.1 hended
    exact ⟨⟨r, Operation.stage_of_result? hr⟩, (Option.some.inj h).symm⟩
  next => exact absurd h (by simp)

theorem of_move?_callOff (h : c.move? (.wire .callOff) = some c') :
    c' = { c with wire := c.wire.callOff, happened := c.happened ++ [.calledOff] } :=
  (Option.some.inj h).symm

theorem of_move?_call (h : c.move? (.wire .call) = some c') :
    ∃ k limit, c.operation.want = .call k limit ∧ c.wire.under = none ∧
      c' = { c with wire := { c.wire with under := some k }, happened := c.happened ++ [.began k] } := by
  obtain ⟨wire, hbegin, rfl⟩ := Option.map_eq_some_iff.1 h
  have hfree := Wire.under_of_begin? hbegin
  obtain ⟨k, limit, hwant, -, rfl⟩ := Wire.of_begin? hbegin
  exact ⟨k, limit, hwant, hfree, rfl⟩

theorem of_move?_link (h : c.move? (.wire (.link a)) = some c') :
    c.wire.possible c.operation.want a = true ∧ c.operation.Turn a c'.operation ∧ c'.wire = c.wire.note 0 a ∧
      c'.happened = c.happened ++ [c.operation.happening c'.operation a] := by
  obtain ⟨wire, hstep, rfl⟩ := Option.map_eq_some_iff.1 h
  obtain ⟨hp, rfl⟩ := Wire.of_link_step? hstep
  exact ⟨hp, Operation.turn_answer (Wire.fits_of_possible hp), rfl, rfl⟩

theorem kept_start {settings : LinkSettings} {l : Link} (hl : Link.ofSettings settings = .ok l) :
    (start l).Kept := by
  rw [Link.ofSettings] at hl
  split at hl
  next => exact absurd hl (by simp)
  next =>
    obtain rfl := Except.ok.inj hl
    exact {
      awaits := fun k hk => absurd hk (by simp [start])
      seated := trivial
      called := fun hcalled => absurd hcalled Bool.false_ne_true
      sockets := rfl
      mark := rfl
      sessions := rfl
      picks := rfl
      attempts := rfl
      heldBack := fun before e after h => absurd h (by simp [start]) }

theorem adds_ask (h : c.Kept) (hm : c.move? (.ask g) = some c') : c.Adds (.asked g) c' := by
  obtain ⟨⟨r, hstage⟩, rfl⟩ := of_move?_ask hm
  obtain ⟨hsessions, hattempts⟩ := Operation.counts_start c.operation.link g
  exact {
    happened := rfl
    awaits := fun k hk => by
      obtain ⟨limit, hwant⟩ := h.awaits k hk
      rw [Operation.want, hstage] at hwant
      exact absurd hwant (by simp)
    seated := Operation.seated_start c.operation.link g
    called := .inl
    live := (Operation.live_start c.operation.link g).trans (Operation.live_of_finished hstage).symm
    mark := Operation.mark?_start c.operation.link g
    sessions := hsessions
    attempts := hattempts
    waiting := by
      rw [Operation.waiting_start, Operation.waiting, hstage]
      rfl
    holding := fun hno => absurd hno Bool.false_ne_true
    releasing := fun hno => absurd (hstage.symm.trans hno) (by simp) }

theorem adds_callOff (h : c.Kept) (hm : c.move? (.wire .callOff) = some c') : c.Adds .calledOff c' := by
  obtain rfl := of_move?_callOff hm
  exact {
    happened := rfl
    awaits := h.awaits
    seated := h.seated
    called := fun _ => .inr rfl
    live := rfl
    mark := rfl
    sessions := rfl
    attempts := rfl
    waiting := rfl
    holding := fun hno => absurd hno Bool.false_ne_true
    releasing := fun hstage => .inr ⟨rfl, hstage⟩ }

theorem adds_call (h : c.Kept) (hm : c.move? (.wire .call) = some c') : ∃ k, c.Adds (.began k) c' := by
  obtain ⟨k, limit, hwant, hfree, rfl⟩ := of_move?_call hm
  exact ⟨k, {
    happened := rfl
    awaits := fun k' hk => by
      obtain rfl := Option.some.inj hk
      exact ⟨limit, hwant⟩
    seated := h.seated
    called := .inl
    live := rfl
    mark := rfl
    sessions := rfl
    attempts := rfl
    waiting := by
      rw [hfree]
      exact Operation.waiting_call hwant
    holding := fun hno => absurd hno Bool.false_ne_true
    releasing := fun hstage => by
      rw [Operation.want, hstage] at hwant
      exact absurd hwant (by simp) }⟩

theorem adds_link (h : c.Kept) (hm : c.move? (.wire (.link a)) = some c') :
    c.Adds (c.operation.happening c'.operation a) c' := by
  obtain ⟨hp, hturn, hwire, hhappened⟩ := of_move?_link hm
  have hunder : c'.wire.under = none := by
    rw [hwire]
    exact Wire.under_note hp h.awaits
  exact {
    happened := hhappened
    awaits := fun k hk => absurd (hunder.symm.trans hk) (by simp)
    seated := Operation.seated_turn hturn h.seated
    called := fun hcalled => by
      rw [hwire, Wire.called_note] at hcalled
      exact .inl hcalled
    live := Operation.live_turn hturn h.seated
    mark := Operation.mark?_turn hturn h.seated
    sessions := Operation.sessions_turn hturn
    attempts := Operation.attempts_turn hturn
    waiting := by
      rw [hunder]
      exact Operation.waiting_turn hturn hp
    holding := fun hheld => by
      obtain ⟨rfl, hstage⟩ := Operation.releasing_of_holdsBack hturn hheld
      exact ⟨Wire.called_of_isCallOff hp rfl, hstage⟩
    releasing := fun hstage => .inl (Operation.givesUp_of_releasing hturn hstage) }

/-- **Every step adds one thing to what has happened.** -/
theorem exists_adds {m : Move} (h : c.Kept) (hm : c.move? m = some c') : ∃ e, c.Adds e c' := by
  cases m with
  | ask g => exact ⟨_, adds_ask h hm⟩
  | wire m =>
    cases m with
    | callOff => exact ⟨_, adds_callOff h hm⟩
    | call =>
      obtain ⟨k, hadds⟩ := adds_call h hm
      exact ⟨_, hadds⟩
    | link a => exact ⟨_, adds_link h hm⟩

/-- What is known of the attempts that were held back stays known. -/
theorem Kept.heldBack_adds (h : c.Kept) (hadds : c.Adds e c') {before after : List Happening} {x : Happening}
    (hsplit : c'.happened = before ++ x :: after) (hx : x.holdsBack = true) :
    .calledOff ∈ before ∧
      (GivesUp after ∨ (c'.operation.stage = .releasing ∧ ∀ y ∈ after, y = .calledOff)) := by
  rw [hadds.happened] at hsplit
  rcases split_concat hsplit with ⟨rfl, rfl, rfl⟩ | ⟨after, rfl, hbefore⟩
  · obtain ⟨hcalled, hstage⟩ := hadds.holding hx
    exact ⟨h.called hcalled, .inr ⟨hstage, by simp⟩⟩
  · obtain ⟨hcalled, hgives | ⟨hstage, hoffs⟩⟩ := h.heldBack before x after hbefore hx
    · exact ⟨hcalled, .inl (hgives.append [e])⟩
    · refine ⟨hcalled, ?_⟩
      rcases hadds.releasing hstage with hgives | ⟨rfl, hstage'⟩
      · exact .inl ⟨after, e, [], rfl, hgives, hoffs⟩
      · refine .inr ⟨hstage', fun y hy => ?_⟩
        rcases List.mem_append.1 hy with hy | hy
        · exact hoffs y hy
        · exact List.mem_singleton.1 hy

/-- **The link goes on to agree with what has happened.** -/
theorem kept_adds (h : c.Kept) (hadds : c.Adds e c') : c'.Kept := by
  have hcount := count_concat hadds.happened
  exact {
    awaits := hadds.awaits
    seated := hadds.seated
    called := fun hcalled => by
      rw [hadds.happened]
      rcases hadds.called hcalled with hbefore | rfl
      · exact List.mem_append_left _ (h.called hbefore)
      · exact List.mem_append_right _ List.mem_cons_self
    sockets := by
      have hold := h.sockets
      have hlive := hadds.live
      rw [hcount, hcount]
      omega
    mark := by rw [hadds.happened, replay_concat, ← h.mark, hadds.mark]
    sessions := by rw [hcount, hadds.sessions, h.sessions]
    picks := by rw [hcount, hadds.attempts, h.picks]
    attempts := by
      have hold := h.attempts
      have hwaiting := hadds.waiting
      rw [hcount, hcount, hcount]
      omega
    heldBack := fun _ _ _ hsplit hx => h.heldBack_adds hadds hsplit hx }

theorem kept_move? {m : Move} (h : c.Kept) (hm : c.move? m = some c') : c'.Kept := by
  obtain ⟨e, hadds⟩ := exists_adds h hm
  exact kept_adds h hadds

variable {settings : LinkSettings} {l : Link} {ms : List Move}

/-- The link agrees with what has happened, whatever happens. -/
theorem kept_run? (hl : Link.ofSettings settings = .ok l) (h : (start l).run? ms = some c) : c.Kept :=
  runSteps_induction (fun _ _ _ hkept hm => kept_move? hkept hm) h (kept_start hl)

/-- There is at most one open socket at every stage. -/
theorem Kept.closes_le (h : c.Kept) : c.count Happening.closes ≤ c.count Happening.opens ∧
    c.count Happening.opens ≤ c.count Happening.closes + 1 := by
  have hsockets := h.sockets
  have hlive : c.operation.live ≤ 1 := Operation.live_le_one c.operation
  omega

/-- **What a link counts and remembers.**  Let operations be asked for, one after the other, of a link that was
just made, in whatever way its sockets answer and whenever all is called off.  There are never two open sockets.
When the last operation has ended:

* the only open socket is that of the session, if there is one;
* there is a session exactly if an attempt to connect has succeeded and since then no call has failed or taken
  too long, and the link was not to be closed;
* as many sessions are counted as attempts have succeeded;
* as many attempts are counted as collectors were chosen, which is how many attempts began and were held back;
* an attempt was held back only if all had been called off before, and the operation that made it ended then;
* the session is in the middle of a message exactly if a frame with more to come was taken, and since then
  neither another frame was taken, nor a reply came in, nor the session began. -/
theorem link_agrees_with_happened (hl : Link.ofSettings settings = .ok l) (hrun : (start l).run? ms = some c) :
    (c.count Happening.closes ≤ c.count Happening.opens ∧
      c.count Happening.opens ≤ c.count Happening.closes + 1) ∧
    (c.operation.result?.isSome = true →
      c.count Happening.opens = c.count Happening.closes + (if c.operation.link.isConnected then 1 else 0) ∧
      (c.operation.link.isConnected = true ↔ Since Happening.connects Happening.loses c.happened) ∧
      c.operation.link.sessions = c.count Happening.connects ∧
      c.operation.link.attempts = c.count Happening.picks ∧
      c.count Happening.picks = c.count Happening.dials + c.count Happening.holdsBack ∧
      (∀ before e after, c.happened = before ++ e :: after → e.holdsBack = true →
        .calledOff ∈ before ∧ GivesUp after) ∧
      ∀ s, c.operation.link.session = some s →
        (s.midMessage = true ↔ Since Happening.takesPart Happening.settles c.happened)) := by
  have hkept := kept_run? hl hrun
  refine ⟨hkept.closes_le, fun hended => ?_⟩
  obtain ⟨r, hr⟩ := Option.isSome_iff_exists.1 hended
  have hstage := Operation.stage_of_result? hr
  have hconnected : c.operation.link.isConnected = (replay c.happened).isSome := by
    rw [← hkept.mark, Operation.mark?, Option.isSome_map]
    rfl
  refine ⟨?_, ?_, hkept.sessions, hkept.picks, ?_, ?_, ?_⟩
  · rw [hkept.sockets, Operation.live_of_finished hstage]
  · rw [hconnected, isSome_replay]
  · have hattempts := hkept.attempts
    rw [Operation.waiting, hstage] at hattempts
    exact hattempts.symm
  · intro before e after hsplit he
    obtain ⟨hcalled, hgives | ⟨hno, -⟩⟩ := hkept.heldBack before e after hsplit he
    · exact ⟨hcalled, hgives⟩
    · exact absurd (hstage.symm.trans hno) (by simp)
  · intro s hs
    have hmark : replay c.happened = some s.midMessage := by rw [← hkept.mark, Operation.mark?, hs]; rfl
    rw [← replay_eq_some_true c.happened (by rw [hmark]; rfl), hmark, Option.some.injEq]

/-- The only collector. -/
def gateway : Address := ⟨"tcp://gateway:5005"⟩

/-- What a link is told that has one collector. -/
def toGateway : LinkSettings := { servers := ⟨[gateway], by decide⟩ }

/-- A link that was just made. -/
def fresh : Link := { servers := toGateway.servers, limits := toGateway.limits, reconnect := toGateway.reconnect }

/-- A socket is opened, and an attempt to connect succeeds. -/
def newSession : List Move :=
  [.wire (.link (.socket (.ok ()))), .wire (.link (.picked gateway)), .wire .call,
    .wire (.link (.outcome (.done [])))]

/-- A message is begun, the session is lost, and another message is begun in the next session. -/
def beginningTwice : List Move :=
  .ask (.send [1] true) :: newSession ++ [.wire .call, .wire (.link (.outcome (.done []))),
    .ask .receive, .wire .call, .wire (.link (.outcome .expired)), .wire (.link .closed)] ++
  .ask (.send [2] true) :: newSession ++ [.wire .call, .wire (.link (.outcome (.done [])))]

/-- All is called off before the first attempt to connect begins. -/
def calledOffFirst : List Move :=
  [.ask .ensure, .wire (.link (.socket (.ok ()))), .wire .callOff, .wire (.link (.picked gateway)),
    .wire (.link (.outcome .withheld)), .wire (.link .closed)]

theorem link_agrees_with_happened_beginningTwice :
    (∃ c, (start fresh).run? beginningTwice = some c ∧ c.operation.result?.isSome = true ∧
      c.operation.link.isConnected = true ∧ c.count Happening.opens = c.count Happening.closes + 1 ∧
      Since Happening.takesPart Happening.settles c.happened) ∧
    ∃ c, (start fresh).run? calledOffFirst = some c ∧ c.operation.result?.isSome = true ∧
      c.operation.link.isConnected = false ∧ c.count Happening.opens = c.count Happening.closes ∧
      c.operation.link.attempts = 1 ∧ c.count Happening.holdsBack = 1 := by
  have hfresh : Link.ofSettings toGateway = .ok fresh := rfl
  refine ⟨?_, ?_⟩
  · obtain ⟨c, hc⟩ : ∃ c, (start fresh).run? beginningTwice = some c := Option.isSome_iff_exists.1 rfl
    have hstate : ((start fresh).run? beginningTwice).map (fun c => (c.operation.result?, c.operation.link.session))
        = some (some (.ok []), some ⟨gateway, true⟩) := rfl
    rw [hc] at hstate
    obtain ⟨hresult, hsession⟩ := Prod.mk.inj (Option.some.inj hstate)
    have hended : c.operation.result?.isSome = true := by rw [hresult]; rfl
    have hconnected : c.operation.link.isConnected = true := by rw [Link.isConnected, hsession]; rfl
    obtain ⟨hopen, -, -, -, -, -, hmark⟩ := (link_agrees_with_happened hfresh hc).2 hended
    rw [hconnected] at hopen
    exact ⟨c, hc, hended, hconnected, hopen, (hmark _ hsession).1 rfl⟩
  · obtain ⟨c, hc⟩ : ∃ c, (start fresh).run? calledOffFirst = some c := Option.isSome_iff_exists.1 rfl
    have hstate : ((start fresh).run? calledOffFirst).map (fun c =>
        (c.operation.result?, c.operation.link.session, c.operation.link.attempts, c.count Happening.dials))
        = some (some (.error .cancelled), none, 1, 0) := rfl
    rw [hc] at hstate
    simp only [Option.map_some, Option.some.injEq, Prod.mk.injEq] at hstate
    obtain ⟨hresult, hsession, hattempts, hdials⟩ := hstate
    have hended : c.operation.result?.isSome = true := by rw [hresult]; rfl
    have hconnected : c.operation.link.isConnected = false := by rw [Link.isConnected, hsession]; rfl
    obtain ⟨hopen, -, -, hpicks, hbegan, -, -⟩ := (link_agrees_with_happened hfresh hc).2 hended
    rw [hconnected] at hopen
    exact ⟨c, hc, hended, hconnected, hopen, hattempts, by omega⟩

end Chronicle

end LogRelay
