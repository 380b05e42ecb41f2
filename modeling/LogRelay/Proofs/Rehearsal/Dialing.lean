import LogRelay.Proofs.Address.Choice
import LogRelay.Proofs.Operation
import LogRelay.Rehearsal.Calls
import Mathlib.Algebra.BigOperators.Group.Finset.Basic

/-!
# Connecting, attempt by attempt

A link that is asked for a session opens a socket and tries collectors on it until one accepts.  Collectors
are drawn one after the other, an attempt that takes too long is given up, and after each attempt that comes
to nothing there is a rest.  All this goes by the clock, and the clock moves for attempts and rests alone.

* `GoesOn`: a wait comes from one moment to a later one;
* `Cue.span`, `Cue.outcome?`: how long a call lasts that may be given up, and what comes of it;
* `goesOn_call`, `goesOn_rest`: the clock moves by that span, or by the length of a rest;
* `Dialing`: a link that is to be connected; its attempts, and when each of them begins;
* `Dialing.goesOn_failed`, `goesOn_failures`: one attempt that comes to nothing, and several in a row;
* `Dialing.connects_at_last`: **the first attempt that succeeds makes the session; until then the clock has moved by
  the spans of all attempts and the rests between them;**
* `Dialing.rest_cut_short`: a rest that is meant to be longer than the clock's longest one.
-/

namespace LogRelay.Rehearsal

/-! ### From one moment to a later one -/

section

variable {σ ν : Type} {m : Machine σ ν} {limit : Instant} {w w' w'' : World} {s s' s'' : σ} {n : Network}

/-- A wait in which nothing is called off comes from one state to another in a number of turns. -/
def GoesOn (m : Machine σ ν) (limit : Instant) (w : World) (s : σ) (w' : World) (s' : σ) : Prop :=
  ∃ turns, ∀ fuel notices, ∃ notices',
    await m limit none (fuel + turns) w s notices = await m limit none fuel w' s' notices'

theorem GoesOn.trans (h : GoesOn m limit w s w' s') (h' : GoesOn m limit w' s' w'' s'') :
    GoesOn m limit w s w'' s'' := by
  obtain ⟨turns, h⟩ := h
  obtain ⟨turns', h'⟩ := h'
  refine ⟨turns' + turns, fun fuel notices => ?_⟩
  obtain ⟨notices₁, h₁⟩ := h (fuel + turns') notices
  obtain ⟨notices₂, h₂⟩ := h' fuel notices₁
  refine ⟨notices₂, ?_⟩
  rw [← Nat.add_assoc, h₁, h₂]

/-- What is wanted is answered at once. -/
theorem GoesOn.answered {a : LinkAnswer} (hwant : m.want s ≠ .nothing)
    (h : w.network.attend w.now w.called (m.want s) = (n, .answered a)) :
    GoesOn m limit w s { w with network := n } (m.answer s a).next := by
  refine ⟨1, fun fuel notices => ⟨(m.answer s a).notices.reverse ++ notices, ?_⟩⟩
  rw [await]
  split
  next hnothing => exact absurd hnothing hwant
  next => rw [h]

/-- The clock moves to the moment at which there is something to answer. -/
theorem GoesOn.waited {t : Instant} (hcalled : w.called = false) (hwant : m.want s ≠ .nothing)
    (h : w.network.attend w.now w.called (m.want s) = (n, .waits)) (hwake : n.wake? = some t)
    (ht : w.now < t) (hlimit : t ≤ limit) :
    GoesOn m limit w s { now := t, called := false, network := n } s := by
  have hclock : max w.now (min t limit) = t := by
    rw [Nat.min_eq_left hlimit]
    exact Nat.max_eq_right (Nat.le_of_lt ht)
  have hopen : ¬ limit ≤ w.now := Nat.not_le.2 (Nat.lt_of_lt_of_le ht hlimit)
  refine ⟨1, fun fuel notices => ⟨notices, ?_⟩⟩
  rw [await]
  split
  next hnothing => exact absurd hnothing hwant
  next =>
    rw [h]
    simp only [if_neg hopen, hwake, hcalled, Bool.false_eq_true, if_false, Network.earlier,
      Option.getD_some, hclock, Bool.or_false]

/-- A wait ends when nothing is wanted any more. -/
theorem GoesOn.done (h : GoesOn m limit w s w' s') (hend : m.want s' = .nothing) :
    ∃ turns, ∀ fuel notices, ∃ notices',
      await m limit none (fuel + turns) w s notices = ⟨w', s', notices', .done⟩ := by
  obtain ⟨turns, h⟩ := h
  refine ⟨1 + turns, fun fuel notices => ?_⟩
  obtain ⟨notices', hawait⟩ := h (fuel + 1) notices
  refine ⟨notices', ?_⟩
  rw [← Nat.add_assoc, hawait, await]
  split
  next => rfl
  next hno => exact absurd hend hno

end

/-! ### Calls and rests on the clock -/

namespace Cue

/-- How long a call takes if it is not given up; some calls never end. -/
def lasting? (cue : Cue) : Option Nat :=
  match cue.ending with
  | .hangs => none
  | _ => some cue.after.asRest.nanos

/-- Whether a call ends before it is given up; if both are due at once, it ends. -/
def isInTime (limit : Duration) (cue : Cue) : Bool := cue.lasting?.any fun d => d ≤ limit.nanos

/-- How long a call lasts: until it ends, but no longer than its limit. -/
def span (limit : Duration) (cue : Cue) : Nat := min (cue.lasting?.getD limit.nanos) limit.nanos

/-- What comes of a call, unless whoever makes it dies. -/
def outcome? (limit : Duration) (c : Call) (cue : Cue) : Option Outcome :=
  if cue.isInTime limit then Network.outcomeOf c cue.ending else some .expired

/-- No call lasts longer than its limit. -/
theorem span_le (limit : Duration) (cue : Cue) : cue.span limit ≤ limit.nanos := Nat.min_le_right _ _

theorem isInTime_of_hangs {limit : Duration} {cue : Cue} (h : cue.ending = .hangs) : cue.isInTime limit = false := by
  rw [isInTime, lasting?, h]
  rfl

end Cue

namespace Network

variable {n : Network} {now t : Nat} {c : Call} {limit : Duration} {o : Outcome} {cue : Cue}

/-- A call that may be given up ends when its span is over. -/
theorem earlier_span (now : Nat) (limit : Duration) (cue : Cue) :
    earlier (cue.lasting?.map (now + ·)) (some (now + limit.nanos)) = some (now + cue.span limit) := by
  rw [Cue.span]
  cases cue.lasting? with
  | none => exact congrArg some (congrArg (now + ·) (Nat.min_self _).symm)
  | some d => exact congrArg some (Nat.add_min_add_left now d limit.nanos)

/-- A call goes on until its span is over. -/
theorem proceed_of_lt (h : t < now + cue.span limit) :
    n.proceed t c (cue.lasting?.map (now + ·)) cue.ending (now + limit.nanos) = (n, .waits) := by
  rw [Cue.span] at h
  have hlimit : ¬ now + limit.nanos ≤ t := by omega
  cases hd : cue.lasting? with
  | none => simp only [proceed, Option.map_none, Bool.false_eq_true, if_false, if_neg hlimit]
  | some d =>
    rw [hd, Option.getD_some] at h
    have hdue : ¬ now + d ≤ t := by omega
    simp only [proceed, Option.map_some, decide_eq_true_eq, if_neg hdue, if_neg hlimit]

/-- When its span is over, a call has ended. -/
theorem proceed_span (h : cue.outcome? limit c = some o) :
    n.proceed (now + cue.span limit) c (cue.lasting?.map (now + ·)) cue.ending (now + limit.nanos)
      = ({ n with pending := none }, .answered (.outcome o)) := by
  rw [Cue.outcome?, Cue.isInTime] at h
  cases hd : cue.lasting? with
  | none =>
    have hspan : cue.span limit = limit.nanos := by rw [Cue.span, hd, Option.getD_none, Nat.min_self]
    rw [hd, Option.any_none, if_neg Bool.false_ne_true, Option.some.injEq] at h
    subst h
    simp only [proceed, hspan, Option.map_none, Bool.false_eq_true, if_false, Nat.le_refl, if_true]
  | some d =>
    have hspan : cue.span limit = min d limit.nanos := by rw [Cue.span, hd, Option.getD_some]
    simp only [hd, Option.any_some, decide_eq_true_eq] at h
    by_cases htime : d ≤ limit.nanos
    · rw [if_pos htime] at h
      simp only [proceed, hspan, Nat.min_eq_left htime, Option.map_some, Nat.le_refl, decide_true, if_true, h]
    · have hmin : min d limit.nanos = limit.nanos := by omega
      have hdue : ¬ now + d ≤ now + limit.nanos := by omega
      rw [if_neg htime, Option.some.injEq] at h
      subst h
      simp only [proceed, hspan, hmin, Option.map_some, decide_eq_true_eq, if_neg hdue, Nat.le_refl, if_true]

/-- The cue of a call that begins now. -/
def cueFor (n : Network) (c : Call) : Cue := (cueOf n.script c).1

/-- The network after a call that began at `now`. -/
def afterCall (n : Network) (now : Nat) (c : Call) : Network :=
  { n.note now (.called c) with script := (cueOf n.script c).2, pending := none }

/-- The network while a call is under way that began at `now`. -/
def during (n : Network) (now : Nat) (c : Call) (limit : Duration) : Network :=
  { n.afterCall now c with
    pending := some (.call ((n.cueFor c).lasting?.map (now + ·)) (n.cueFor c).ending (now + limit.nanos)) }

theorem begin_eq_during (n : Network) (now : Nat) (c : Call) (limit : Duration) :
    n.begin now c limit = n.during now c limit := by
  rw [begin, during, afterCall, cueFor]
  generalize cueOf n.script c = p
  obtain ⟨⟨after, ending⟩, script⟩ := p
  cases ending <;> rfl

theorem attend_call_during (n : Network) (now t : Nat) (c : Call) (limit : Duration) :
    (n.during now c limit).attend t false (.call c limit) = (n.during now c limit).proceed t c
      ((n.cueFor c).lasting?.map (now + ·)) (n.cueFor c).ending (now + limit.nanos) := rfl

/-- A call that begins is attended at once. -/
theorem attend_call_of_idle (hpending : n.pending = none) :
    n.attend t false (.call c limit) = (n.during t c limit).attend t false (.call c limit) := by
  rw [attend_call_during]
  simp only [attend, attendCall, hpending, Bool.false_eq_true, if_false, begin_eq_during]
  rfl

theorem wake?_during (n : Network) (now : Nat) (c : Call) (limit : Duration) :
    (n.during now c limit).wake? = some (now + (n.cueFor c).span limit) := earlier_span now limit (n.cueFor c)

/-- The network while a rest is taken. -/
def resting (n : Network) (until_ : Nat) : Network := { n with pending := some (.rest until_) }

/-- A rest that begins is attended at once. -/
theorem attend_rest_of_idle {d : Duration} (hpending : n.pending = none) :
    n.attend now false (.rest d) = (n.resting (now + d.asRest.nanos)).attend now false (.rest d) := by
  simp only [attend, attendRest, resting, hpending]
  rfl

theorem attend_resting_of_lt {d : Duration} {until_ : Nat} (h : t < until_) :
    (n.resting until_).attend t false (.rest d) = (n.resting until_, .waits) := by
  simp only [attend, attendRest, resting, Bool.false_eq_true, if_false]
  exact if_neg (Nat.not_le.2 h)

theorem attend_resting_self {d : Duration} (hpending : n.pending = none) :
    (n.resting t).attend t false (.rest d) = (n, .answered (.rested true)) := by
  have hidle : { n with pending := none } = n := by rw [← hpending]
  simp only [attend, attendRest, resting, Bool.false_eq_true, if_false, Nat.le_refl, if_true, hidle]

end Network

section

variable {σ ν : Type} {m : Machine σ ν} {until_ : Instant} {w : World} {s : σ} {c : Call} {limit d : Duration}
  {o : Outcome}

/-- What is wanted is answered at a certain moment, and what is under way until then is kept by the network. -/
theorem GoesOn.attended {n n' : Network} {t : Instant} {a : LinkAnswer} (hcalled : w.called = false)
    (hwant : m.want s ≠ .nothing)
    (hbegins : w.network.attend w.now false (m.want s) = n.attend w.now false (m.want s))
    (hwaits : w.now < t → n.attend w.now false (m.want s) = (n, .waits)) (hwake : n.wake? = some t)
    (hends : n.attend t false (m.want s) = (n', .answered a)) (hle : w.now ≤ t) (huntil : t ≤ until_) :
    GoesOn m until_ w s { now := t, called := false, network := n' } (m.answer s a).next := by
  rcases Nat.lt_or_eq_of_le hle with hlater | hnow
  · have hwaited := GoesOn.waited hcalled hwant (by rw [hcalled, hbegins, hwaits hlater]) hwake hlater huntil
    exact hwaited.trans (GoesOn.answered hwant hends)
  · -- what takes no time is answered in the turn in which it begins
    subst hnow
    have hanswers : w.network.attend w.now w.called (m.want s) = (n', .answered a) := by
      rw [hcalled, hbegins, hends]
    rw [← hcalled]
    exact GoesOn.answered hwant hanswers

/-- **A call that is wanted is answered when its span is over.** -/
theorem goesOn_call (hwant : m.want s = .call c limit) (hcalled : w.called = false)
    (hpending : w.network.pending = none) (ho : (w.network.cueFor c).outcome? limit c = some o)
    (huntil : w.now + (w.network.cueFor c).span limit ≤ until_) :
    GoesOn m until_ w s
      { now := w.now + (w.network.cueFor c).span limit, called := false, network := w.network.afterCall w.now c }
      (m.answer s (.outcome o)).next := by
  refine GoesOn.attended (n := w.network.during w.now c limit) hcalled (by simp [hwant]) ?_ ?_
    (w.network.wake?_during w.now c limit) ?_ (Nat.le_add_right _ _) huntil
  · rw [hwant, Network.attend_call_of_idle hpending]
  · intro hlater
    rw [hwant]
    exact Network.proceed_of_lt hlater
  · rw [hwant]
    exact Network.proceed_span ho

/-- **A rest that is wanted is over when its length has passed**, or that of the longest rest. -/
theorem goesOn_rest (hwant : m.want s = .rest d) (hcalled : w.called = false)
    (hpending : w.network.pending = none) (huntil : w.now + d.asRest.nanos ≤ until_) :
    GoesOn m until_ w s { now := w.now + d.asRest.nanos, called := false, network := w.network }
      (m.answer s (.rested true)).next := by
  refine GoesOn.attended (n := w.network.resting (w.now + d.asRest.nanos)) hcalled (by simp [hwant]) ?_ ?_ rfl
    ?_ (Nat.le_add_right _ _) huntil
  · rw [hwant, Network.attend_rest_of_idle hpending]
  · intro hlater
    rw [hwant]
    exact Network.attend_resting_of_lt hlater
  · rw [hwant]
    exact Network.attend_resting_self hpending

end

/-! ### Attempts -/

/-- An attempt to connect: the collector, and how it is to end. -/
structure Attempt where
  address : Address
  cue : Cue

namespace Attempt

variable {limit : Duration} {t : Attempt}

/-- What comes of an attempt. -/
def outcome? (limit : Duration) (t : Attempt) : Option Outcome := t.cue.outcome? limit (.connect t.address)

/-- An attempt comes to nothing: it fails, or takes too long. -/
def Fails (limit : Duration) (t : Attempt) : Prop := ∃ o, t.outcome? limit = some o ∧ o.isFailure = true

def Succeeds (limit : Duration) (t : Attempt) : Prop := ∃ frame, t.outcome? limit = some (.done frame)

/-- An attempt by which nobody dies succeeds or comes to nothing. -/
theorem succeeds_or_fails (h : t.cue.ending ≠ .dies) : t.Succeeds limit ∨ t.Fails limit := by
  rw [Succeeds, Fails, outcome?, Cue.outcome?]
  by_cases htime : t.cue.isInTime limit = true
  · rw [if_pos htime]
    cases hending : t.cue.ending with
    | succeeds frame => exact .inl ⟨[], rfl⟩
    | fails => exact .inr ⟨_, rfl, rfl⟩
    | failsWith cause => exact .inr ⟨_, rfl, rfl⟩
    | notConnected => exact .inr ⟨_, rfl, rfl⟩
    | empty => exact .inr ⟨_, rfl, rfl⟩
    | hangs =>
      rw [Cue.isInTime_of_hangs hending] at htime
      exact absurd htime Bool.false_ne_true
    | dies => exact absurd hending h
  · rw [if_neg htime]
    exact .inr ⟨_, rfl, rfl⟩

end Attempt

namespace Network

variable {n : Network}

theorem nextCue_fst (cues : List Cue) : (nextCue cues).1 = cues.head?.getD {} := by
  cases cues <;> rfl

theorem nextCue_snd (cues : List Cue) : (nextCue cues).2 = cues.drop 1 := by
  cases cues <;> rfl

theorem cueFor_of_fate (h : n.script.fate = fun _ => none) (a : Address) :
    n.cueFor (.connect a) = (nextCue n.script.connects).1 := by
  simp only [cueFor, cueOf, h]

theorem script_afterCall_of_fate (h : n.script.fate = fun _ => none) (a : Address) (now : Nat) :
    (n.afterCall now (.connect a)).script = { n.script with connects := (nextCue n.script.connects).2 } := by
  simp only [afterCall, cueOf, h]

/-- The next attempt with one of several collectors. -/
def nextAttempt (n : Network) (among : AddressSet) : Attempt :=
  ⟨(among.choose n.random).1, n.cueFor (.connect (among.choose n.random).1)⟩

/-- The network after an attempt that began at `now`. -/
def afterAttempt (n : Network) (among : AddressSet) (now : Nat) : Network :=
  ({ n with random := (among.choose n.random).2 } : Network).afterCall now (.connect (among.choose n.random).1)

end Network

/-- The world in which an attempt has ended that began now. -/
def World.afterAttempt (w : World) (l : Link) : World :=
  { now := w.now + (w.network.nextAttempt l.servers).cue.span l.limits.connect, called := false
    network := w.network.afterAttempt l.servers w.now }

/-- A link without a session that is to be connected, in a world in which a socket can be opened and nothing
was called off. -/
structure Dialing where
  link : Link
  world : World
  disconnected : link.session = none
  uncalled : world.called = false
  idle : world.network.pending = none
  opens : (Network.nextCue world.network.script.sockets).1.ending = .succeeds none

namespace Dialing

variable {d : Dialing} {g : Goal} {until_ : Instant} {i k : Nat}

/-- The world in which an attempt begins, after `i` others and the rests after them. -/
def worldAt (d : Dialing) : Nat → World
  | 0 =>
    { d.world with
      network :=
        { d.world.network.note d.world.now .opened with
          script := { d.world.network.script with
            sockets := (Network.nextCue d.world.network.script.sockets).2 } } }
  | i + 1 =>
    let w := (d.worldAt i).afterAttempt d.link
    { w with now := w.now + (d.link.reconnect.delay (i + 1)).asRest.nanos }

/-- The attempt after `i` others. -/
def attempt (d : Dialing) (i : Nat) : Attempt := (d.worldAt i).network.nextAttempt d.link.servers

/-- How long that attempt lasts. -/
def span (d : Dialing) (i : Nat) : Nat := (d.attempt i).cue.span d.link.limits.connect

/-- How long the rest after `i` attempts is. -/
def rest (d : Dialing) (i : Nat) : Nat := (d.link.reconnect.delay i).asRest.nanos

/-- When the attempt after `i` others begins: after their spans and the rest after each of them. -/
def begins (d : Dialing) (i : Nat) : Nat := d.world.now + ∑ j ∈ Finset.range i, (d.span j + d.rest (j + 1))

/-- The operation when the attempt after `i` others begins. -/
def standing (d : Dialing) (g : Goal) (i : Nat) : Operation :=
  ⟨{ d.link with attempts := d.link.attempts + i }, g, .choosing (Reconnect.tally i)⟩

/-- The operation while that attempt is being made. -/
def connecting (d : Dialing) (g : Goal) (i : Nat) : Operation :=
  ⟨{ d.link with attempts := d.link.attempts + i + 1 }, g,
    .connecting (d.attempt i).address (Reconnect.tally i)⟩

/-- The link when that attempt has succeeded. -/
def connected (d : Dialing) (i : Nat) : Link :=
  { d.link with
    session := some ⟨(d.attempt i).address, false⟩
    sessions := d.link.sessions + 1
    attempts := d.link.attempts + i + 1 }

/-- The world in which that attempt has ended. -/
def worldAfter (d : Dialing) (i : Nat) : World := (d.worldAt i).afterAttempt d.link

theorem begins_succ (d : Dialing) (i : Nat) : d.begins (i + 1) = d.begins i + d.span i + d.rest (i + 1) := by
  rw [begins, Finset.sum_range_succ, ← Nat.add_assoc, ← begins, ← Nat.add_assoc]

theorem called_worldAt (d : Dialing) (i : Nat) : (d.worldAt i).called = false := by
  cases i with
  | zero => exact d.uncalled
  | succ i => rfl

theorem pending_worldAt (d : Dialing) (i : Nat) : (d.worldAt i).network.pending = none := by
  cases i with
  | zero => exact d.idle
  | succ i => rfl

/-- **The time when an attempt begins.** -/
theorem now_worldAt (d : Dialing) (i : Nat) : (d.worldAt i).now = d.begins i := by
  induction i with
  | zero => rfl
  | succ i ih =>
    rw [begins_succ, ← ih]
    rfl

/-- The socket is opened at once. -/
theorem goesOn_opened (d : Dialing) (g : Goal) (until_ : Instant) :
    GoesOn operationMachine until_ d.world ⟨d.link, g, .opening⟩ (d.worldAt 0) (d.standing g 0) := by
  refine GoesOn.answered (a := .socket (.ok ())) (by simp [operationMachine, Operation.want]) ?_
  show d.world.network.attendSocket d.world.now = _
  simp only [Network.attendSocket, d.opens]

/-- A collector is chosen at once. -/
theorem goesOn_chosen (d : Dialing) (g : Goal) (until_ : Instant) (i : Nat) :
    GoesOn operationMachine until_ (d.worldAt i) (d.standing g i)
      { d.worldAt i with
        network := { (d.worldAt i).network with
          random := (d.link.servers.choose (d.worldAt i).network.random).2 } }
      (d.connecting g i) :=
  GoesOn.answered (a := .picked (d.attempt i).address) (by simp [operationMachine, Operation.want, standing]) rfl

/-- The attempt ends when its span is over. -/
theorem goesOn_attempted {o : Outcome} (ho : (d.attempt i).outcome? d.link.limits.connect = some o)
    (huntil : d.begins i + d.span i ≤ until_) :
    GoesOn operationMachine until_ (d.worldAt i) (d.standing g i) (d.worldAfter i)
      ((d.connecting g i).answer (.outcome o)).next := by
  rw [← now_worldAt] at huntil
  refine (d.goesOn_chosen g until_ i).trans ?_
  exact goesOn_call (m := operationMachine) rfl (d.called_worldAt i) (d.pending_worldAt i) ho huntil

theorem answer_connecting_of_failure {o : Outcome} (ho : o.isFailure = true) :
    ((d.connecting g i).answer (.outcome o)).next
      = (d.connecting g i).goto (.resting (Reconnect.tally (i + 1))) := by
  rw [← Reconnect.tally_tally_add_one]
  cases o with
  | failed cause => rfl
  | expired => rfl
  | done | withheld | abandoned => exact absurd ho Bool.false_ne_true

/-- **An attempt that comes to nothing is followed by a rest**, and after that by another attempt. -/
theorem goesOn_failed (h : (d.attempt i).Fails d.link.limits.connect) (huntil : d.begins (i + 1) ≤ until_) :
    GoesOn operationMachine until_ (d.worldAt i) (d.standing g i) (d.worldAt (i + 1)) (d.standing g (i + 1)) := by
  obtain ⟨o, ho, hfailure⟩ := h
  have hattempted : d.begins i + d.span i ≤ until_ := by
    rw [begins_succ] at huntil
    exact Nat.le_trans (Nat.le_add_right _ _) huntil
  have hrested : (d.worldAfter i).now + d.rest (i + 1) ≤ until_ := by
    rw [← now_worldAt] at huntil
    exact huntil
  refine (goesOn_attempted (g := g) ho hattempted).trans ?_
  have hwant : operationMachine.want ((d.connecting g i).goto (.resting (Reconnect.tally (i + 1))))
      = .rest (d.link.reconnect.delay (i + 1)) :=
    congrArg LinkWant.rest (Reconnect.delay_tally d.link.reconnect (i + 1))
  rw [answer_connecting_of_failure hfailure]
  exact goesOn_rest (m := operationMachine) hwant rfl rfl hrested

/-- **Attempts go on as long as they come to nothing.** -/
theorem goesOn_failures (hfails : ∀ i < k, (d.attempt i).Fails d.link.limits.connect)
    (huntil : d.begins k ≤ until_) :
    GoesOn operationMachine until_ d.world ⟨d.link, g, .opening⟩ (d.worldAt k) (d.standing g k) := by
  induction k with
  | zero => exact d.goesOn_opened g until_
  | succ k ih =>
    have hearlier : d.begins k ≤ until_ := by
      rw [begins_succ, Nat.add_assoc] at huntil
      exact Nat.le_trans (Nat.le_add_right _ _) huntil
    exact (ih (fun i hi => hfails i (by omega)) hearlier).trans (goesOn_failed (hfails k (by omega)) huntil)

/-- An attempt that succeeds makes the session. -/
theorem goesOn_connected (hfails : ∀ i < k, (d.attempt i).Fails d.link.limits.connect)
    (hsucceeds : (d.attempt k).Succeeds d.link.limits.connect) (huntil : d.begins k + d.span k ≤ until_) :
    GoesOn operationMachine until_ d.world ⟨d.link, g, .opening⟩ (d.worldAfter k)
      ⟨d.connected k, g, Operation.stageWith ⟨(d.attempt k).address, false⟩ g⟩ := by
  obtain ⟨frame, hdone⟩ := hsucceeds
  have hbegins : d.begins k ≤ until_ := Nat.le_trans (Nat.le_add_right _ _) huntil
  exact (goesOn_failures hfails hbegins).trans (goesOn_attempted hdone huntil)

/-- The collectors that are tried are those chosen one after the other. -/
theorem chooseMany_worldAt (d : Dialing) (k : Nat) :
    d.link.servers.chooseMany k d.world.network.random
      = ((List.range k).map fun i => (d.attempt i).address, (d.worldAt k).network.random) := by
  induction k with
  | zero => rfl
  | succ k ih =>
    rw [AddressSet.chooseMany_succ, ih, List.range_succ, List.map_append]
    rfl

/-- What is asked of the network: a socket, and then an attempt after the other. -/
theorem deeds_worldAt (d : Dialing) (k : Nat) :
    (d.worldAt k).network.deeds.reverse = d.world.network.deeds.reverse ++ (d.world.now, .opened) ::
      (List.range k).map fun i => (d.begins i, .called (.connect (d.attempt i).address)) := by
  induction k with
  | zero => exact List.reverse_cons
  | succ k ih =>
    rw [List.range_succ, List.map_append, ← List.cons_append, ← List.append_assoc, ← ih, List.map_singleton,
      ← now_worldAt]
    exact List.reverse_cons

theorem script_worldAt (hfate : d.world.network.script.fate = fun _ => none) (i : Nat) :
    (d.worldAt i).network.script.fate = (fun _ => none) ∧
    (d.worldAt i).network.script.connects = d.world.network.script.connects.drop i := by
  induction i with
  | zero => exact ⟨hfate, rfl⟩
  | succ i ih =>
    have hscript : (d.worldAt (i + 1)).network.script
        = { (d.worldAt i).network.script with
          connects := (Network.nextCue (d.worldAt i).network.script.connects).2 } :=
      Network.script_afterCall_of_fate ih.1 _ (d.worldAt i).now
    rw [hscript, Network.nextCue_snd, ih.2, List.drop_drop]
    exact ⟨ih.1, rfl⟩

/-- **Where no collector has a fate of its own, the attempts follow the script.** -/
theorem cue_attempt (hfate : d.world.network.script.fate = fun _ => none) (i : Nat) :
    (d.attempt i).cue = d.world.network.script.connects.getD i {} := by
  obtain ⟨hfate', hconnects⟩ := script_worldAt hfate i
  have hcue : (d.attempt i).cue = (Network.nextCue (d.worldAt i).network.script.connects).1 :=
    Network.cueFor_of_fate hfate' _
  rw [hcue, Network.nextCue_fst, hconnects, List.getD_eq_getElem?_getD, List.head?_drop]

/-- **Connecting takes as long as its attempts and rests.**  Let the first `k` attempts come to nothing and the
next one succeed.  Then the operation has succeeded when its last attempt ends, and the link has a session with
the collector of that attempt, in which no message is unfinished.  One socket was opened, and each attempt went
to the next collector chosen.  The first one began at once, and each other one after the rest that followed the
one before; no attempt lasted longer than its limit.  The clock has moved by what the attempts and the rests
lasted, and no more. -/
theorem connects_at_last (d : Dialing) (k : Nat) (hfails : ∀ i < k, (d.attempt i).Fails d.link.limits.connect)
    (hsucceeds : (d.attempt k).Succeeds d.link.limits.connect)
    (huntil : d.world.now + ∑ i ∈ Finset.range (k + 1), d.span i + ∑ i ∈ Finset.range k, d.rest (i + 1) ≤ until_) :
    (∃ turns, ∀ fuel notices, ∃ notices',
      await operationMachine until_ none (fuel + turns) d.world (Operation.start d.link .ensure).next notices
        = ⟨d.worldAfter k, ⟨d.connected k, .ensure, .finished (.ok [])⟩, notices', .done⟩) ∧
    (d.worldAfter k).now
      = d.world.now + ∑ i ∈ Finset.range (k + 1), d.span i + ∑ i ∈ Finset.range k, d.rest (i + 1) ∧
    (d.worldAfter k).network.deeds.reverse = d.world.network.deeds.reverse ++ (d.world.now, .opened) ::
      (List.range (k + 1)).map (fun i => (d.begins i, .called (.connect (d.attempt i).address))) ∧
    d.link.servers.chooseMany (k + 1) d.world.network.random
      = ((List.range (k + 1)).map fun i => (d.attempt i).address, (d.worldAfter k).network.random) ∧
    ∀ i, d.span i ≤ d.link.limits.connect.nanos := by
  have hnow : (d.worldAfter k).now
      = d.world.now + ∑ i ∈ Finset.range (k + 1), d.span i + ∑ i ∈ Finset.range k, d.rest (i + 1) := by
    show (d.worldAt k).now + d.span k = _
    rw [now_worldAt, begins, Finset.sum_add_distrib, Finset.sum_range_succ, ← Nat.add_assoc, Nat.add_right_comm,
      ← Nat.add_assoc]
  have hwant : operationMachine.want ⟨d.connected k, .ensure, .finished (.ok [])⟩ = .nothing := rfl
  have hends : d.begins k + d.span k ≤ until_ := by
    rw [← now_worldAt]
    exact hnow.le.trans huntil
  refine ⟨?_, hnow, d.deeds_worldAt (k + 1), d.chooseMany_worldAt (k + 1), fun i => Cue.span_le _ _⟩
  rw [Operation.start_of_none d.disconnected]
  exact (goesOn_connected hfails hsucceeds hends).done hwant

/-- A link with one collector that is to be connected. -/
def withScript (connects : List Cue) (reconnect : Reconnect) : Dialing where
  link :=
    { servers := ⟨[⟨"tcp://a:5005"⟩], by decide⟩
      limits := ⟨.ofMillis 1000, .ofMillis 1000, .ofMillis 50⟩
      reconnect }
  world := { network := { script := { connects }, random := {} } }
  disconnected := rfl
  uncalled := rfl
  idle := rfl
  opens := rfl

/-- A link whose first attempt fails after two milliseconds; the next one is given up, and the third succeeds. -/
def thirdTime : Dialing :=
  withScript [⟨.ofMillis 2, .fails⟩, ⟨.zero, .hangs⟩] (.backoff (.ofMillis 100) (.ofMillis 1000))

/-- Two milliseconds, a rest of 100, then fifty milliseconds and a rest of 200. -/
theorem connects_at_last_thirdTime :
    (∀ i < 2, (thirdTime.attempt i).Fails thirdTime.link.limits.connect) ∧
    (thirdTime.attempt 2).Succeeds thirdTime.link.limits.connect ∧
    (∃ turns, ∀ fuel notices, ∃ notices',
      await operationMachine 352000000 none (fuel + turns) thirdTime.world
          (Operation.start thirdTime.link .ensure).next notices
        = ⟨thirdTime.worldAfter 2, ⟨thirdTime.connected 2, .ensure, .finished (.ok [])⟩, notices', .done⟩) ∧
    (thirdTime.worldAfter 2).now = 352000000 := by
  have hfirst : (thirdTime.attempt 0).cue = ⟨.ofMillis 2, .fails⟩ := cue_attempt rfl 0
  have hsecond : (thirdTime.attempt 1).cue = ⟨.zero, .hangs⟩ := cue_attempt rfl 1
  have hthird : (thirdTime.attempt 2).cue = {} := cue_attempt rfl 2
  have hfails : ∀ i < 2, (thirdTime.attempt i).Fails thirdTime.link.limits.connect := by
    intro i hi
    cases i with
    | zero =>
      refine ⟨.failed (Network.faultOf (.connect (thirdTime.attempt 0).address)), ?_, rfl⟩
      rw [Attempt.outcome?, hfirst]
      rfl
    | succ i =>
      obtain rfl : i = 0 := by omega
      refine ⟨.expired, ?_, rfl⟩
      rw [Attempt.outcome?, hsecond]
      rfl
  have hsucceeds : (thirdTime.attempt 2).Succeeds thirdTime.link.limits.connect := by
    refine ⟨[], ?_⟩
    rw [Attempt.outcome?, hthird]
    rfl
  have htotal : thirdTime.world.now + ∑ i ∈ Finset.range (2 + 1), thirdTime.span i
      + ∑ i ∈ Finset.range 2, thirdTime.rest (i + 1) = 352000000 := by
    simp only [Finset.sum_range_succ, Finset.range_zero, Finset.sum_empty, span, hfirst, hsecond, hthird]
    decide
  obtain ⟨hdone, hnow, -⟩ := connects_at_last thirdTime 2 hfails hsucceeds htotal.le
  exact ⟨hfails, hsucceeds, hdone, hnow.trans htotal⟩

/-- A link that is to rest for thirty years and a millisecond when its first attempt has failed. -/
def thirtyYears : Dialing := withScript [⟨.zero, .fails⟩] (.fixed (.ofMillis 946080000001))

/-- **A rest is not always as long as it is meant to be.**  The first attempt fails at once, and the next one
succeeds at once; but the clock has not moved by the length of the rest between them. -/
theorem rest_cut_short :
    (thirtyYears.attempt 0).Fails thirtyYears.link.limits.connect ∧
    (thirtyYears.attempt 1).Succeeds thirtyYears.link.limits.connect ∧
    thirtyYears.span 0 = 0 ∧ thirtyYears.span 1 = 0 ∧
    (∃ turns, ∀ fuel notices, ∃ notices',
      await operationMachine 946080000002000000 none (fuel + turns) thirtyYears.world
          (Operation.start thirtyYears.link .ensure).next notices
        = ⟨thirtyYears.worldAfter 1, ⟨thirtyYears.connected 1, .ensure, .finished (.ok [])⟩, notices', .done⟩) ∧
    (thirtyYears.worldAfter 1).now < thirtyYears.world.now + (thirtyYears.link.reconnect.delay 1).nanos := by
  have hfirst : (thirtyYears.attempt 0).cue = ⟨.zero, .fails⟩ := cue_attempt rfl 0
  have hsecond : (thirtyYears.attempt 1).cue = {} := cue_attempt rfl 1
  have hfails : (thirtyYears.attempt 0).Fails thirtyYears.link.limits.connect := by
    refine ⟨.failed (Network.faultOf (.connect (thirtyYears.attempt 0).address)), ?_, rfl⟩
    rw [Attempt.outcome?, hfirst]
    rfl
  have hsucceeds : (thirtyYears.attempt 1).Succeeds thirtyYears.link.limits.connect := by
    refine ⟨[], ?_⟩
    rw [Attempt.outcome?, hsecond]
    rfl
  have hspan : thirtyYears.span 0 = 0 := by
    rw [span, hfirst]
    decide
  have hspan' : thirtyYears.span 1 = 0 := by
    rw [span, hsecond]
    decide
  have hbegins : thirtyYears.begins 1 = 946080000000000000 := by
    rw [begins, Finset.sum_range_one, hspan]
    decide
  have hnow : (thirtyYears.worldAfter 1).now = 946080000000000000 := by
    show (thirtyYears.worldAt 1).now + thirtyYears.span 1 = _
    rw [now_worldAt, hspan', hbegins]
  have hends : thirtyYears.begins 1 + thirtyYears.span 1 ≤ 946080000002000000 := by
    rw [hbegins, hspan']
    decide
  have hconnects := goesOn_connected (d := thirtyYears) (g := .ensure) (k := 1)
    (fun i hi => by
      obtain rfl : i = 0 := by omega
      exact hfails) hsucceeds hends
  refine ⟨hfails, hsucceeds, hspan, hspan', hconnects.done rfl, ?_⟩
  rw [hnow]
  decide

end Dialing

end LogRelay.Rehearsal
