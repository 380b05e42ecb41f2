import LogRelay.Proofs.Batcher
import LogRelay.Proofs.Runs

/-!
# When a batcher hands on its batches

A `Station` is a batcher between its two queues, with a clock, with producers that hand in events when
they like, and with somebody behind it who makes room when he likes.  It also keeps a record of what
has come in and of what went out.

* `Station.move?`: the steps, in any order that is possible;
* `Station.Orderly`, `orderly_move?`, `orderly_run?`: how the record, the queues and the batcher hang
  together as long as nothing is called off and somebody takes the batches;
* `Station.flush_cause`: why a batch is made;
* `Station.batches_in_time`: which batches are handed on, when they are made, and what a batcher waits for.

A batcher for batches that no memory can hold dies before its first turn, and nothing comes in.
-/

namespace LogRelay

def BatcherAnswer.event? : BatcherAnswer → Option Event
  | event e => some e
  | _ => none

/-- A batcher between its queues. -/
structure Station where
  now : Instant
  called : Bool := false
  input : Queue Event
  output : Queue Batch
  batcher : Batcher
  /-- The events that have been in the queue of events, the first one first. -/
  arrived : List Event
  /-- The events that the batcher has taken out of it. -/
  received : List Event := []
  /-- The batches that the queue of batches has accepted from the batcher. -/
  handed : List Batch := []
  /-- When the last batch was handed on; before that, when the batcher was started. -/
  since : Instant

namespace Station

/-- A batcher that is started at `now` between two queues. -/
def start (settings : BatcherSettings) (now : Instant) (input : Queue Event) (output : Queue Batch) :
    Station where
  now := now
  input := input
  output := output
  batcher := .start settings now
  arrived := input.items
  since := now

/-- The steps of a station. -/
inductive Move where
  | addProducer
  | dropProducer
  | arrive (e : Event)
  /-- A batch is taken, which makes room for another one. -/
  | take
  /-- Nobody takes batches any more. -/
  | leave
  | turn
  | callOff
  | pass (d : Duration)

/-- The batcher goes on at its queues, unless it has to wait.  When it has ended, its ends of the queues
go. -/
def turn? (p : Station) : Option Station :=
  (p.batcher.poll? p.called p.now p.input p.output).map fun (a, input, output) =>
    let b := (p.batcher.answer p.now a).2
    let handed := p.batcher.handsOn? p.called p.output
    { p with
      input := if b.isFinished then input.dropReceiver else input
      output := if b.isFinished then output.dropSender else output
      batcher := b
      received := p.received ++ a.event?.toList
      handed := p.handed ++ handed.toList
      since := handed.elim p.since fun _ => p.now }

/-- What comes of a step, if it is possible. -/
def move? (p : Station) : Move → Option Station
  | .addProducer => if 0 < p.input.senders then some { p with input := p.input.addSender } else none
  | .dropProducer => if 0 < p.input.senders then some { p with input := p.input.dropSender } else none
  | .arrive e =>
    if 0 < p.input.senders then
      match p.input.send e with
      | .accepted input => some { p with input, arrived := p.arrived ++ [e] }
      | _ => none
    else none
  | .take =>
    match p.output.receive with
    | .item _ output => some { p with output }
    | _ => none
  | .leave => some { p with output := p.output.dropReceiver }
  | .turn => p.turn?
  | .callOff => some { p with called := true }
  | .pass d => some { p with now := p.now + d.nanos }

/-- What comes of several steps, if each is possible. -/
abbrev run? : Station → List Move → Option Station := runSteps move?

end Station

/-! ### What a turn comes to -/

namespace Batcher

variable {called : Bool} {now since : Instant} {b b' : Batcher} {input input' : Queue Event}
  {output output' : Queue Batch} {handed : Option Batch}

/-- Whether no more events will come to a batcher, as far as it knows. -/
def isClosing (b : Batcher) : Bool :=
  match b.stage with
  | .flushing _ .stop | .finished => true
  | .flushing _ .resume | .collecting => false

theorem isClosing_of_isFinished (h : b.isFinished = true) : b.isClosing = true := by
  cases hs : b.stage with
  | finished => simp only [isClosing, hs]
  | collecting | flushing => exact absurd h (by simp [isFinished, hs])

/-- The queue of events has lost what the batcher is answered. -/
theorem items_poll? {a : BatcherAnswer}
    (h : b.poll? called now input output = some (a, input', output')) :
    input.items = a.event?.toList ++ input'.items := by
  rw [poll?] at h
  cases hw : b.want with
  | event deadline =>
    simp only [hw] at h
    cases ht : input.take? called with
    | none =>
      cases deadline with
      | none => simp [ht] at h
      | some t =>
        simp only [ht] at h
        split at h
        · obtain ⟨rfl, rfl, rfl⟩ := by simpa using h
          rfl
        · exact absurd h (by simp)
    | some q =>
      obtain ⟨t, q⟩ := q
      simp only [ht] at h
      cases Queue.yields_of_take? ht with
      | cancelled | closed =>
        obtain ⟨rfl, rfl, rfl⟩ := by simpa using h
        rfl
      | item hc hi =>
        obtain ⟨rfl, rfl, rfl⟩ := by simpa using h
        exact hi
  | room batch =>
    simp only [hw, Option.map_eq_some_iff] at h
    obtain ⟨⟨t, q⟩, -, h⟩ := h
    obtain ⟨rfl, rfl, rfl⟩ := by simpa using h
    rfl
  | nothing => simp [hw] at h

theorem idle_turn (h : Turn called now b input output handed b' input' output') : b'.idle = b.idle := by
  cases h <;> rfl

/-- The deadline moves with the moment at which a batch was last handed on. -/
theorem deadline_turn (h : Turn called now b input output handed b' input' output')
    (hb : b.deadline = since + b.idle.nanos) (hrun : b'.isFinished = false) :
    b'.deadline = (handed.elim since fun _ => now) + b'.idle.nanos := by
  cases h with
  | kept | filled | drained | due => exact hb
  | handed => rfl
  | cancelled | exhausted | handedLast | dropped | cancelledWaiting => exact absurd hrun (by simp [isFinished])

section Undisturbed

/-! Nothing is called off, and somebody takes the batches. -/

variable (h : Turn called now b input output handed b' input' output') (hc : called = false)
  (hr : output.receiving = true)
include h hc hr

/-- The batches are numbered through. -/
theorem numbered_turn {before : List Batch}
    (hb : (before ++ b.pending).map Batch.sequence = List.range b.next) :
    (before ++ handed.toList ++ b'.pending).map Batch.sequence = List.range b'.next := by
  cases h with
  | cancelled hc' | cancelledWaiting hc' => exact absurd hc' (by simp [hc])
  | dropped _ _ hr' => exact absurd hr' (by simp [hr])
  | kept _ hs => simpa [pending, hs] using hb
  | filled _ hs | drained _ hs | due hs =>
    simpa [pending, hs, List.range_succ] using hb
  | exhausted _ hs | handed _ hs | handedLast _ hs => simpa [pending, hs] using hb

/-- Only a batcher that has found the queue at its end goes on to its own end. -/
theorem closing_turn (hb : b.isClosing = true → input.items = [] ∧ input.senders = 0)
    (hclosing : b'.isClosing = true) : input'.items = [] ∧ input'.senders = 0 := by
  cases h with
  | cancelled hc' | cancelledWaiting hc' => exact absurd hc' (by simp [hc])
  | dropped _ _ hr' => exact absurd hr' (by simp [hr])
  | kept _ hs => exact absurd hclosing (by simp [isClosing, hs])
  | filled | due | handed => exact absurd hclosing (by simp [isClosing])
  | drained _ _ hi hend | exhausted _ _ hi hend => exact ⟨hi, hend⟩
  | handedLast _ hs => exact hb (by simp [isClosing, hs])

/-- A batcher that ends has nothing left. -/
theorem spool_turn (hb : b.Tidy) (hend : b'.isFinished = true) : b'.spool = [] := by
  cases h with
  | cancelled hc' | cancelledWaiting hc' => exact absurd hc' (by simp [hc])
  | dropped _ _ hr' => exact absurd hr' (by simp [hr])
  | kept _ hs => exact absurd hend (by simp [isFinished, hs])
  | filled | drained | due => rfl
  | exhausted _ _ _ _ hspool => exact hspool
  | handed | handedLast =>
    rename_i hs _ _
    simp only [Tidy, hs] at hb
    exact hb.1

end Undisturbed

end Batcher

namespace Station

variable {settings : BatcherSettings} {now : Instant} {input : Queue Event} {output : Queue Batch}
  {p p' : Station} {m : Move} {ms : List Move}

/-- What a turn of the batcher comes to. -/
theorem exists_of_turn (h : p.move? .turn = some p') :
    ∃ (taken : List Event) (handed : Option Batch) (b : Batcher) (input : Queue Event)
      (output : Queue Batch),
      p.batcher.Turn p.called p.now p.input p.output handed b input output ∧
      p.input.items = taken ++ input.items ∧
      p' = { p with
        input := if b.isFinished then input.dropReceiver else input
        output := if b.isFinished then output.dropSender else output
        batcher := b
        received := p.received ++ taken
        handed := p.handed ++ handed.toList
        since := handed.elim p.since fun _ => p.now } := by
  simp only [move?, turn?, Option.map_eq_some_iff] at h
  obtain ⟨⟨a, input, output⟩, hp, rfl⟩ := h
  exact ⟨_, _, _, input, output, Batcher.turn_of_poll? hp, Batcher.items_poll? hp, rfl⟩

/-- What any other step comes to: it leaves the batcher and what is known of it alone, and who has
gone does not come back. -/
structure Outer (p p' : Station) : Prop where
  batcher : p'.batcher = p.batcher
  received : p'.received = p.received
  handed : p'.handed = p.handed
  since : p'.since = p.since
  arrived : ∃ es, p'.input.items = p.input.items ++ es ∧ p'.arrived = p.arrived ++ es
  closed : p.input.senders = 0 → p'.input = p.input
  called : p'.called = false → p.called = false
  receiving : p'.output.receiving = true → p.output.receiving = true

theorem outer_move? (hm : p.move? m = some p') (hturn : m ≠ .turn) : Outer p p' := by
  have hnone : ∃ es, p.input.items = p.input.items ++ es ∧ p.arrived = p.arrived ++ es :=
    ⟨[], by simp, by simp⟩
  cases m with
  | turn => exact absurd rfl hturn
  | addProducer | dropProducer =>
    simp only [move?, Option.ite_none_right_eq_some, Option.some.injEq] at hm
    obtain ⟨hsenders, rfl⟩ := hm
    exact ⟨rfl, rfl, rfl, rfl, hnone, fun hgone => absurd hgone (Nat.ne_of_gt hsenders), id, id⟩
  | arrive e =>
    simp only [move?, Option.ite_none_right_eq_some] at hm
    obtain ⟨hsenders, hm⟩ := hm
    cases hs : p.input.send e with
    | accepted q =>
      obtain ⟨-, -, rfl⟩ := Queue.send_eq_accepted hs
      simp only [hs, Option.some.injEq] at hm
      obtain rfl := hm
      exact ⟨rfl, rfl, rfl, rfl, ⟨[e], rfl, rfl⟩, fun hgone => absurd hgone (Nat.ne_of_gt hsenders), id,
        id⟩
    | full | closed => simp [hs] at hm
  | take =>
    cases hq : p.output.receive with
    | item batch output =>
      obtain ⟨rest, -, rfl⟩ := Queue.exists_of_receive hq
      simp only [move?, hq, Option.some.injEq] at hm
      obtain rfl := hm
      exact ⟨rfl, rfl, rfl, rfl, hnone, fun _ => rfl, id, id⟩
    | empty | finished => simp [move?, hq] at hm
  | leave =>
    obtain rfl := Option.some.inj hm
    exact ⟨rfl, rfl, rfl, rfl, hnone, fun _ => rfl, id, fun hr => absurd hr (by simp [Queue.dropReceiver])⟩
  | callOff =>
    obtain rfl := Option.some.inj hm
    exact ⟨rfl, rfl, rfl, rfl, hnone, fun _ => rfl, fun hc => absurd hc (by simp), id⟩
  | pass d =>
    obtain rfl := Option.some.inj hm
    exact ⟨rfl, rfl, rfl, rfl, hnone, fun _ => rfl, id, id⟩

/-- What was called off stays so, and whoever has left does not come back. -/
theorem undisturbed_move? (hm : p.move? m = some p') :
    (p'.called = false → p.called = false) ∧
      (p'.output.receiving = true → p.output.receiving = true) := by
  by_cases hturn : m = .turn
  · subst hturn
    obtain ⟨taken, handed, b, input, output, ht, -, rfl⟩ := exists_of_turn hm
    refine ⟨id, fun hr => ?_⟩
    rw [← (Batcher.ends_turn ht).2.2]
    revert hr
    show (if b.isFinished then output.dropSender else output).receiving = true → _
    split <;> exact id
  · have hkept := outer_move? hm hturn
    exact ⟨hkept.called, hkept.receiving⟩

/-! ### What always holds -/

/-- A station at which nothing was called off and where somebody takes the batches: what has come in is
found again in what went out, in what the batcher holds and in what waits for it. -/
structure Orderly (settings : BatcherSettings) (p : Station) : Prop where
  size : p.batcher.size = max settings.size 1
  idle : p.batcher.idle = settings.idle
  tidy : p.batcher.Tidy
  numbered : (p.handed ++ p.batcher.pending).map Batch.sequence = List.range p.batcher.next
  sized : ∀ batch ∈ p.handed, 0 < batch.size ∧ batch.size ≤ p.batcher.size
  received : p.handed.flatMap Batch.events ++ p.batcher.waiting = p.received
  arrived : p.received ++ p.input.items = p.arrived
  deadline : p.batcher.isFinished = false → p.batcher.deadline = p.since + p.batcher.idle.nanos
  closing : p.batcher.isClosing = true → p.input.items = [] ∧ p.input.senders = 0
  ended : p.batcher.isFinished = true → p.batcher.spool = []

theorem orderly_start : (start settings now input output).Orderly settings where
  size := rfl
  idle := rfl
  tidy := Batcher.tidy_start settings now
  numbered := rfl
  sized := by simp [start]
  received := rfl
  arrived := rfl
  deadline _ := rfl
  closing h := absurd h (by simp [start, Batcher.start, Batcher.isClosing])
  ended _ := rfl

/-- The batcher's turn keeps everything in order. -/
theorem orderly_turn (h : p.Orderly settings) (hm : p.move? .turn = some p') (hc : p.called = false)
    (hr : p.output.receiving = true) : p'.Orderly settings := by
  obtain ⟨taken, handed, b, input, output, ht, htaken, rfl⟩ := exists_of_turn hm
  have hsize := Batcher.size_turn ht
  have hclosing := Batcher.closing_turn ht hc hr h.closing
  have hreceived : handed.toList.flatMap Batch.events ++ b.waiting = p.batcher.waiting ++ taken := by
    rcases Batcher.waiting_turn ht with hkept | ⟨hc' | hr', -, -⟩
    · rw [htaken, ← List.append_assoc p.batcher.waiting] at hkept
      exact List.append_cancel_right hkept
    · exact absurd hc' (by simp [hc])
    · exact absurd hr' (by simp [hr])
  -- the queue of a batcher that has ended is empty before its receiver goes
  have hitems : (if b.isFinished then input.dropReceiver else input).items = input.items := by
    split
    next hend => exact (hclosing (Batcher.isClosing_of_isFinished hend)).1.symm
    next => rfl
  have hsenders : (if b.isFinished then input.dropReceiver else input).senders = input.senders := by
    split <;> rfl
  refine ⟨hsize.trans h.size, (Batcher.idle_turn ht).trans h.idle, Batcher.tidy_turn ht h.tidy,
    Batcher.numbered_turn ht hc hr h.numbered, ?_, ?_, ?_, ?_, ?_, Batcher.spool_turn ht hc hr h.tidy⟩
  · intro batch hb
    show 0 < batch.size ∧ batch.size ≤ b.size
    rw [hsize]
    rcases List.mem_append.1 hb with hb | hb
    · exact h.sized batch hb
    · obtain rfl := Option.mem_toList.1 hb
      have hpending := Batcher.pending_of_handed ht
      obtain ⟨hpos, hle, -⟩ := h.tidy.of_mem_pending (hpending ▸ List.mem_singleton_self batch)
      exact ⟨hpos, hle⟩
  · show (p.handed ++ handed.toList).flatMap Batch.events ++ b.waiting = p.received ++ taken
    rw [List.flatMap_append, List.append_assoc, hreceived, ← h.received, List.append_assoc]
  · show p.received ++ taken ++ _ = p.arrived
    rw [hitems, List.append_assoc, ← htaken, h.arrived]
  · exact Batcher.deadline_turn ht (h.deadline (Batcher.isFinished_of_turn ht))
  · intro hb
    show (if b.isFinished then _ else _ : Queue Event).items = _ ∧ _
    rw [hitems, hsenders]
    exact hclosing hb

/-- Every step keeps everything in order. -/
theorem orderly_move? (h : p.Orderly settings) (hm : p.move? m = some p') (hc : p.called = false)
    (hr : p.output.receiving = true) : p'.Orderly settings := by
  by_cases hturn : m = .turn
  · subst hturn
    exact orderly_turn h hm hc hr
  · have hkept := outer_move? hm hturn
    obtain ⟨es, hitems, harrived⟩ := hkept.arrived
    have hclosing (hb : p.batcher.isClosing = true) : p'.input.items = [] ∧ p'.input.senders = 0 := by
      rw [hkept.closed (h.closing hb).2]
      exact h.closing hb
    constructor
    case arrived => rw [hkept.received, hitems, harrived, ← List.append_assoc, h.arrived]
    all_goals simp only [hkept.batcher, hkept.handed, hkept.received, hkept.since]
    case size => exact h.size
    case idle => exact h.idle
    case tidy => exact h.tidy
    case numbered => exact h.numbered
    case sized => exact h.sized
    case received => exact h.received
    case deadline => exact h.deadline
    case closing => exact hclosing
    case ended => exact h.ended

theorem orderly_run? (h : (start settings now input output).run? ms = some p) (hc : p.called = false)
    (hr : p.output.receiving = true) : p.Orderly settings := by
  let P (p : Station) : Prop := p.called = false → p.output.receiving = true → p.Orderly settings
  refine runSteps_induction (P := P) ?_ h (fun _ _ => orderly_start) hc hr
  intro m p p' hp hm hc hr
  obtain ⟨hcalled, hreceiving⟩ := undisturbed_move? hm
  exact orderly_move? (hp (hcalled hc) (hreceiving hr)) hm (hcalled hc) (hreceiving hr)

/-! ### Why a batch is made -/

/-- Why a batch is made: there are enough events for a full one, or events have waited long enough, or no
more events will come. -/
inductive Cause (settings : BatcherSettings) (p : Station) (batch : Batch) : Prop where
  | full (h : batch.size = max settings.size 1)
  | due (h : p.since + settings.idle.nanos ≤ p.now) (hsize : 0 < batch.size)
  | closed (hi : p.input.items = []) (hs : p.input.senders = 0) (hsize : 0 < batch.size)

/-- A turn that makes a batch. -/
theorem cause_of_turn {batch : Batch} {after : AfterFlush} (h : p.Orderly settings)
    (hm : p.move? .turn = some p') (hs : p.batcher.stage = .collecting)
    (hs' : p'.batcher.stage = .flushing batch after) : Cause settings p batch := by
  obtain ⟨taken, handed, b, input, output, ht, htaken, rfl⟩ := exists_of_turn hm
  have hdeadline := h.deadline (by simp [Batcher.isFinished, hs])
  rw [h.idle] at hdeadline
  have htidy := h.tidy
  simp only [Batcher.Tidy, hs] at htidy
  cases ht with
  | @filled e rest _ _ hi hdue =>
    obtain ⟨rfl, -⟩ := by simpa using hs'
    rcases hdue with hfull | hdue
    · refine .full ?_
      rw [← h.size]
      simp only [Batch.size, List.length_append, List.length_singleton]
      omega
    · exact .due (hdeadline ▸ hdue) (by simp [Batch.size])
  | drained _ _ hi hend hspool =>
    obtain ⟨rfl, -⟩ := by simpa using hs'
    exact .closed hi hend (List.length_pos_iff.2 hspool)
  | due _ hspool hdue =>
    obtain ⟨rfl, -⟩ := by simpa using hs'
    exact .due (hdeadline ▸ hdue) (List.length_pos_iff.2 hspool)
  | kept => simp [hs] at hs'
  | cancelled | exhausted => simp at hs'
  | handed _ hs₁ | handedLast _ hs₁ | dropped _ hs₁ | cancelledWaiting _ hs₁ => simp [hs] at hs₁

/-- A turn when events have waited long enough: all that waits goes into a batch, with the event that has
come, if one has. -/
theorem flushes_overdue (h : p.Orderly settings) (hm : p.move? .turn = some p') (hc : p.called = false)
    (hs : p.batcher.stage = .collecting) (hdue : p.since + settings.idle.nanos ≤ p.now)
    (hsome : p.batcher.spool ≠ [] ∨ p'.received ≠ p.received) :
    ∃ batch after es, p'.batcher.stage = .flushing batch after ∧ p'.received = p.received ++ es ∧
      batch.events = p.batcher.spool ++ es := by
  obtain ⟨taken, handed, b, input, output, ht, htaken, rfl⟩ := exists_of_turn hm
  have hdeadline := h.deadline (by simp [Batcher.isFinished, hs])
  rw [h.idle] at hdeadline
  cases ht with
  | kept _ _ _ _ hearly => exact absurd (hdeadline ▸ hearly) (Nat.not_lt.2 hdue)
  | @filled e rest _ _ hi =>
    have hes : taken = [e] := by
      have hitems : [e] ++ rest = taken ++ rest := hi.symm.trans htaken
      exact (List.append_cancel_right hitems).symm
    exact ⟨_, _, [e], rfl, by rw [hes], rfl⟩
  | drained _ _ hi =>
    have hes : taken = [] := (List.append_eq_nil_iff.1 (htaken.symm.trans hi)).1
    exact ⟨_, _, [], rfl, by rw [hes], (List.append_nil _).symm⟩
  | due =>
    have hes : taken = [] := by simpa using htaken
    exact ⟨_, _, [], rfl, by rw [hes], (List.append_nil _).symm⟩
  | exhausted _ _ hi _ hspool =>
    have hes : taken = [] := (List.append_eq_nil_iff.1 (htaken.symm.trans hi)).1
    simp [hspool, hes] at hsome
  | cancelled hc' => exact absurd hc' (by simp [hc])
  | handed _ hs₁ | handedLast _ hs₁ | dropped _ hs₁ | cancelledWaiting _ hs₁ => simp [hs] at hs₁

/-- A row of numbers from nought on that goes on is one from nought on. -/
theorem eq_range_of_append {before after : List Nat} {n : Nat} (h : before ++ after = List.range n) :
    before = List.range before.length := by
  have hle : before.length ≤ n := by
    have hlength := congrArg List.length h
    rw [List.length_append, List.length_range] at hlength
    omega
  calc before = (before ++ after).take before.length := List.take_left.symm
    _ = (List.range n).take before.length := by rw [h]
    _ = List.range before.length := by rw [List.take_range, Nat.min_eq_left hle]

/-- **A batcher hands on its batches in order and in time**, whatever comes in and whatever room there is at
whatever moments, as long as nothing is called off and somebody takes the batches.  The batches are numbered
through and hold the events that were received, in the order in which they came; with those that the batcher
still holds and those that are still in the queue they are all that has arrived, and a batcher that has ended
has handed on all of it.  No batch is empty or too large.  A batch is made only when it is full, when the
idle time has passed since the last one was handed on, or when no more events will come.  A batcher that
waits for an event with something in its spool has room in it, and its time has not come; once its time has
come, the next turn makes a batch of all that waits, with an event that has come in this turn.  A batcher that
waits with a batch finds the queue full. -/
theorem batches_in_time (h : (start settings now input output).run? ms = some p) (hc : p.called = false)
    (hr : p.output.receiving = true) :
    (p.handed.map Batch.sequence = List.range p.handed.length ∧
      p.handed.flatMap Batch.events ++ p.batcher.waiting = p.received ∧
      p.received ++ p.input.items = p.arrived ∧
      (p.batcher.isFinished = true → p.handed.flatMap Batch.events = p.arrived)) ∧
    (∀ batch ∈ p.handed, 0 < batch.size ∧ batch.size ≤ max settings.size 1) ∧
    (∀ p' batch after, p.move? .turn = some p' → p.batcher.stage = .collecting →
      p'.batcher.stage = .flushing batch after → Cause settings p batch) ∧
    (p.move? .turn = none → p.batcher.stage = .collecting → p.batcher.spool ≠ [] →
      p.batcher.spool.length < max settings.size 1 ∧ p.now < p.since + settings.idle.nanos) ∧
    (∀ p', p.move? .turn = some p' → p.batcher.stage = .collecting →
      p.since + settings.idle.nanos ≤ p.now → p.batcher.spool ≠ [] ∨ p'.received ≠ p.received →
      ∃ batch after es, p'.batcher.stage = .flushing batch after ∧ p'.received = p.received ++ es ∧
        batch.events = p.batcher.spool ++ es) ∧
    (∀ batch after, p.move? .turn = none → p.batcher.stage = .flushing batch after →
      p.output.capacity ≤ p.output.items.length) := by
  have horder := orderly_run? h hc hr
  refine ⟨⟨?_, horder.received, horder.arrived, ?_⟩, horder.size ▸ horder.sized, ?_, ?_, ?_, ?_⟩
  · have hnumbered := horder.numbered
    rw [List.map_append] at hnumbered
    simpa using eq_range_of_append hnumbered
  · intro hend
    have hitems := (horder.closing (Batcher.isClosing_of_isFinished hend)).1
    have hwaiting : p.batcher.waiting = [] := by
      cases hs : p.batcher.stage with
      | finished => simpa [Batcher.waiting, Batcher.pending, hs] using horder.ended hend
      | collecting | flushing => exact absurd hend (by simp [Batcher.isFinished, hs])
    rw [← horder.arrived, ← horder.received, hwaiting, hitems, List.append_nil, List.append_nil]
  · exact fun p' batch after hm hs hs' => cause_of_turn horder hm hs hs'
  · intro hm hs hspool
    obtain ⟨-, -, -, hearly⟩ := Batcher.waits_of_collecting hs (Option.map_eq_none_iff.1 hm)
    have htidy := horder.tidy
    simp only [Batcher.Tidy, hs] at htidy
    have hdeadline := horder.deadline (by simp [Batcher.isFinished, hs])
    exact ⟨horder.size ▸ htidy, horder.idle ▸ hdeadline ▸ hearly hspool⟩
  · exact fun p' hm hs hdue hsome => flushes_overdue horder hm hc hs hdue hsome
  · intro batch after hm hs
    exact (Batcher.waits_of_flushing hs (Option.map_eq_none_iff.1 hm)).2.2

/-- The `n`th line of some source. -/
def line (n : UInt64) : Event := { source := "a", offset := n, line := n, timestamp := 0, text := "" }

/-- Two events for a batch, and five nanoseconds for one that is not full. -/
def twoByTwo : Station := start { size := 2, idle := .ofNanos 5 } 0 { capacity := 3 } { capacity := 1 }

/-- One event that waits until it is due, a full batch after it, and one event that still waits. -/
def dueThenFull : List Move :=
  [.arrive (line 0), .turn, .pass (.ofNanos 5), .turn, .turn, .arrive (line 1), .arrive (line 2), .turn,
    .turn, .take, .turn, .arrive (line 3), .turn]

theorem batches_in_time_dueThenFull :
    ∃ p, twoByTwo.run? dueThenFull = some p ∧
      p.handed = [⟨0, [line 0]⟩, ⟨1, [line 1, line 2]⟩] ∧
      p.handed.map Batch.sequence = List.range p.handed.length ∧
      p.handed.flatMap Batch.events ++ p.batcher.waiting = p.received ∧
      p.batcher.stage = .collecting ∧ p.batcher.spool = [line 3] ∧ p.move? .turn = none ∧
      p.batcher.spool.length < 2 ∧ p.now < p.since + 5 := by
  obtain ⟨p, hp⟩ : ∃ p, twoByTwo.run? dueThenFull = some p := Option.isSome_iff_exists.1 rfl
  have hlast : (twoByTwo.run? dueThenFull).map
        (fun p => (p.called, p.output.receiving, p.handed, p.batcher.stage, p.batcher.spool))
      = some (false, true, [⟨0, [line 0]⟩, ⟨1, [line 1, line 2]⟩], .collecting, [line 3]) := rfl
  have hwaits : (twoByTwo.run? dueThenFull).map (fun p => (p.move? .turn).isNone) = some true := rfl
  rw [hp] at hlast hwaits
  obtain ⟨hc, hr, hhanded, hs, hspool⟩ := by simpa using hlast
  have hwaits : p.move? .turn = none := by simpa using hwaits
  obtain ⟨⟨hnumbered, hreceived, -, -⟩, -, -, hwait, -, -⟩ := batches_in_time hp hc hr
  obtain ⟨hroom, hearly⟩ := hwait hwaits hs (by simp [hspool])
  exact ⟨p, hp, hhanded, hnumbered, hreceived, hs, hspool, hwaits, hroom, hearly⟩

end Station

end LogRelay
