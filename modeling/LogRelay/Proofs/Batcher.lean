import LogRelay.Proofs.Queue

/-!
# The turns of a batcher

A turn is what a batcher does at its queues without having to wait in between.

* `Batcher.handsOn?`: the batch that a turn puts into the queue of batches;
* `Batcher.Turn`, `turn_of_poll?`: all that a turn can come to;
* `waits_of_collecting`, `waits_of_flushing`: what a batcher finds that has to wait;
* `Batcher.Tidy`, `tidy_turn`: spool and batch have the sizes and the number that they are meant to
  have;
* `Batcher.waiting`, `waiting_turn`: the events that a batcher holds, and that no turn loses one.
-/

namespace LogRelay.Batcher

/-- The batch that a batcher puts into the queue of batches when it has its turn. -/
def handsOn? (b : Batcher) (called : Bool) (output : Queue Batch) : Option Batch :=
  match b.want with
  | .room batch =>
    match output.hand? called batch with
    | some (.accepted, _) => some batch
    | _ => none
  | _ => none

/-- The turns of a batcher, with the batch that it puts into the queue, the batcher and the queues
after that.  An event is `kept` in the spool or has `filled` it; when no more events will come, the
spool is `drained` or `exhausted`; it is `due` when its events have waited long enough. -/
inductive Turn (called : Bool) (now : Instant) (b : Batcher) (input : Queue Event)
    (output : Queue Batch) : Option Batch → Batcher → Queue Event → Queue Batch → Prop where
  | cancelled (hc : called = true) (hs : b.stage = .collecting) :
      Turn called now b input output none { b with stage := .finished } input output
  | kept {e : Event} {rest : List Event} (hc : called = false) (hs : b.stage = .collecting)
      (hi : input.items = e :: rest) (hsize : b.spool.length + 1 < b.size) (hearly : now < b.deadline) :
      Turn called now b input output none { b with spool := b.spool ++ [e] }
        { input with items := rest } output
  | filled {e : Event} {rest : List Event} (hc : called = false) (hs : b.stage = .collecting)
      (hi : input.items = e :: rest) (hdue : b.size ≤ b.spool.length + 1 ∨ b.deadline ≤ now) :
      Turn called now b input output none
        { b with
          spool := [], next := b.next + 1, stage := .flushing ⟨b.next, b.spool ++ [e]⟩ .resume }
        { input with items := rest } output
  | drained (hc : called = false) (hs : b.stage = .collecting) (hi : input.items = [])
      (hend : input.senders = 0) (hspool : b.spool ≠ []) :
      Turn called now b input output none
        { b with
          spool := [], next := b.next + 1, stage := .flushing ⟨b.next, b.spool⟩ .stop } input output
  | exhausted (hc : called = false) (hs : b.stage = .collecting) (hi : input.items = [])
      (hend : input.senders = 0) (hspool : b.spool = []) :
      Turn called now b input output none { b with stage := .finished } input output
  | due (hs : b.stage = .collecting) (hspool : b.spool ≠ []) (hdue : b.deadline ≤ now) :
      Turn called now b input output none
        { b with
          spool := [], next := b.next + 1, stage := .flushing ⟨b.next, b.spool⟩ .resume }
        input output
  | handed {batch : Batch} (hc : called = false) (hs : b.stage = .flushing batch .resume)
      (hr : output.receiving = true) (hroom : output.items.length < output.capacity) :
      Turn called now b input output (some batch)
        { b with deadline := now + b.idle.nanos, stage := .collecting } input
        { output with items := output.items ++ [batch] }
  | handedLast {batch : Batch} (hc : called = false) (hs : b.stage = .flushing batch .stop)
      (hr : output.receiving = true) (hroom : output.items.length < output.capacity) :
      Turn called now b input output (some batch) { b with stage := .finished } input
        { output with items := output.items ++ [batch] }
  | dropped {batch : Batch} {after : AfterFlush} (hc : called = false)
      (hs : b.stage = .flushing batch after) (hr : output.receiving = false) :
      Turn called now b input output none { b with stage := .finished } input output
  | cancelledWaiting {batch : Batch} {after : AfterFlush} (hc : called = true)
      (hs : b.stage = .flushing batch after) :
      Turn called now b input output none { b with stage := .finished } input output

variable {called : Bool} {now : Instant} {b b' : Batcher} {input input' : Queue Event}
  {output output' : Queue Batch} {handed : Option Batch}

/-- What the queues answer a batcher that collects. -/
theorem turn_of_collecting {a : BatcherAnswer} (hs : b.stage = .collecting)
    (h : b.poll? called now input output = some (a, input', output')) :
    Turn called now b input output none (b.answer now a).2 input' output' := by
  simp only [poll?, want, hs] at h
  cases ht : input.take? called with
  | none =>
    -- nothing has come: only the clock can answer, and it does so for events in the spool alone
    rw [ht] at h
    by_cases hspool : b.spool.isEmpty
    · simp [hspool] at h
    · simp only [hspool] at h
      by_cases hdue : b.deadline ≤ now
      · simp only [Bool.false_eq_true, if_false, if_pos hdue, Option.some.injEq, Prod.mk.injEq] at h
        obtain ⟨rfl, rfl, rfl⟩ := h
        have hanswer : (b.answer now .due).2
            = { b with
                spool := [], next := b.next + 1, stage := .flushing ⟨b.next, b.spool⟩ .resume } := by
          simp only [answer, hs, flush]
        rw [hanswer]
        exact .due hs (by simpa using hspool) hdue
      · simp [hdue] at h
  | some p =>
    obtain ⟨t, q⟩ := p
    rw [ht] at h
    cases Queue.yields_of_take? ht with
    | cancelled hc =>
      simp only [Option.some.injEq, Prod.mk.injEq] at h
      obtain ⟨rfl, rfl, rfl⟩ := h
      have hanswer : (b.answer now .cancelled).2 = { b with stage := .finished } := by
        simp only [answer, hs, finish]
      rw [hanswer]
      exact .cancelled hc hs
    | @item e rest hc hi =>
      simp only [Option.some.injEq, Prod.mk.injEq] at h
      obtain ⟨rfl, rfl, rfl⟩ := h
      by_cases hfull : b.size ≤ (b.spool ++ [e]).length ∨ b.deadline ≤ now
      · have hanswer : (b.answer now (.event e)).2
            = { b with
                spool := [], next := b.next + 1
                stage := .flushing ⟨b.next, b.spool ++ [e]⟩ .resume } := by
          simp only [answer, hs, takeIn, decide_eq_true_eq, if_pos hfull, flush]
        rw [hanswer]
        exact .filled hc hs hi (by simpa using hfull)
      · have hanswer : (b.answer now (.event e)).2 = { b with spool := b.spool ++ [e] } := by
          simp only [answer, hs, takeIn, decide_eq_true_eq, if_neg hfull]
        rw [hanswer]
        rw [List.length_append, List.length_singleton, not_or] at hfull
        exact .kept hc hs hi (by omega) (Nat.lt_of_not_le hfull.2)
    | closed hc hi hend =>
      simp only [Option.some.injEq, Prod.mk.injEq] at h
      obtain ⟨rfl, rfl, rfl⟩ := h
      by_cases hspool : b.spool.isEmpty
      · have hanswer : (b.answer now .inputClosed).2 = { b with stage := .finished } := by
          simp only [answer, hs, hspool, if_true, finish]
        rw [hanswer]
        exact .exhausted hc hs hi hend (by simpa using hspool)
      · have hanswer : (b.answer now .inputClosed).2
            = { b with
                spool := [], next := b.next + 1, stage := .flushing ⟨b.next, b.spool⟩ .stop } := by
          simp only [answer, hs, hspool, Bool.false_eq_true, if_false, flush]
        rw [hanswer]
        exact .drained hc hs hi hend (by simpa using hspool)

/-- What the queues answer a batcher whose batch waits for room. -/
theorem turn_of_flushing {a : BatcherAnswer} {batch : Batch} {after : AfterFlush}
    (hs : b.stage = .flushing batch after)
    (h : b.poll? called now input output = some (a, input', output')) :
    Turn called now b input output (b.handsOn? called output) (b.answer now a).2 input' output' := by
  simp only [poll?, want, hs, Option.map_eq_some_iff] at h
  obtain ⟨⟨t, q⟩, ht, h⟩ := h
  simp only [Prod.mk.injEq] at h
  obtain ⟨rfl, rfl, rfl⟩ := h
  simp only [handsOn?, want, hs, ht]
  cases Queue.admits_of_hand? ht with
  | cancelled hc =>
    have hanswer : (b.answer now (.handed .cancelled)).2 = { b with stage := .finished } := by
      simp only [answer, hs, answerHanding, finish]
    rw [hanswer]
    exact .cancelledWaiting hc hs
  | accepted hc hr hroom =>
    cases after with
    | resume =>
      have hanswer : (b.answer now (.handed .accepted)).2
          = { b with deadline := now + b.idle.nanos, stage := .collecting } := by
        simp only [answer, hs, answerHanding]
      rw [hanswer]
      exact .handed hc hs hr hroom
    | stop =>
      have hanswer : (b.answer now (.handed .accepted)).2 = { b with stage := .finished } := by
        simp only [answer, hs, answerHanding, finish]
      rw [hanswer]
      exact .handedLast hc hs hr hroom
  | closed hc hr =>
    have hanswer : (b.answer now (.handed .closed)).2 = { b with stage := .finished } := by
      simp only [answer, hs, answerHanding, finish]
    rw [hanswer]
    exact .dropped hc hs hr

/-- **Every turn is one of the kinds above.** -/
theorem turn_of_poll? {a : BatcherAnswer}
    (h : b.poll? called now input output = some (a, input', output')) :
    Turn called now b input output (b.handsOn? called output) (b.answer now a).2 input' output' := by
  cases hs : b.stage with
  | collecting =>
    have hnone : b.handsOn? called output = none := by simp only [handsOn?, want, hs]
    rw [hnone]
    exact turn_of_collecting hs h
  | flushing batch after => exact turn_of_flushing hs h
  | finished =>
    simp only [poll?, want, hs] at h
    exact absurd h (by simp)

/-! ### When a batcher waits -/

/-- A batcher that collects and has to wait finds no event, and what it has is not due. -/
theorem waits_of_collecting (hs : b.stage = .collecting) (h : b.poll? called now input output = none) :
    called = false ∧ input.items = [] ∧ input.senders ≠ 0 ∧ (b.spool ≠ [] → now < b.deadline) := by
  simp only [poll?, want, hs] at h
  have htake : input.take? called = none := by
    cases ht : input.take? called with
    | none => rfl
    | some p =>
      obtain ⟨t, q⟩ := p
      cases t <;> simp [ht] at h
  obtain ⟨hc, hitems, hsenders⟩ := Queue.empty_of_take? htake
  refine ⟨hc, hitems, hsenders, fun hspool => Nat.lt_of_not_le fun hdue => ?_⟩
  simp [htake, hspool, hdue] at h

/-- A batcher whose batch has to wait finds the queue full and its receiver there. -/
theorem waits_of_flushing {batch : Batch} {after : AfterFlush} (hs : b.stage = .flushing batch after)
    (h : b.poll? called now input output = none) :
    called = false ∧ output.receiving = true ∧ output.capacity ≤ output.items.length := by
  simp only [poll?, want, hs, Option.map_eq_none_iff] at h
  exact Queue.full_of_hand? h

/-! ### What a batcher holds -/

/-- The batches that a batcher holds. -/
def pending (b : Batcher) : List Batch :=
  match b.stage with
  | .flushing batch _ => [batch]
  | .collecting | .finished => []

/-- The events that a batcher holds, the oldest first. -/
def waiting (b : Batcher) : List Event := b.pending.flatMap Batch.events ++ b.spool

/-- A batcher at work: while it collects, the spool is not full; while a batch waits for room, the
spool is empty, and the batch has the number before the next one and is neither empty nor too large.
-/
def Tidy (b : Batcher) : Prop :=
  match b.stage with
  | .collecting => b.spool.length < b.size
  | .flushing batch _ =>
    b.spool = [] ∧ 0 < batch.size ∧ batch.size ≤ b.size ∧ batch.sequence + 1 = b.next
  | .finished => True

/-- A batcher that has a turn has not ended. -/
theorem isFinished_of_turn (h : Turn called now b input output handed b' input' output') :
    b.isFinished = false := by
  cases h with
  | cancelled _ hs | kept _ hs | filled _ hs | drained _ hs | exhausted _ hs | due hs | handed _ hs
  | handedLast _ hs | dropped _ hs | cancelledWaiting _ hs => simp only [isFinished, hs]

/-- **No turn loses an event**, unless nobody takes batches any more or all was called off; then the
batcher has ended, and hands nothing on. -/
theorem waiting_turn (h : Turn called now b input output handed b' input' output') :
    handed.toList.flatMap Batch.events ++ b'.waiting ++ input'.items = b.waiting ++ input.items ∨
      (called = true ∨ output.receiving = false) ∧ b'.isFinished = true ∧ handed = none := by
  cases h with
  | cancelled hc hs => exact .inr ⟨.inl hc, rfl, rfl⟩
  | dropped hc hs hr => exact .inr ⟨.inr hr, rfl, rfl⟩
  | cancelledWaiting hc hs => exact .inr ⟨.inl hc, rfl, rfl⟩
  | kept hc hs hi hsize hearly => exact .inl (by simp [waiting, pending, hs, hi])
  | filled hc hs hi hdue => exact .inl (by simp [waiting, pending, hs, hi])
  | drained hc hs hi hend hspool => exact .inl (by simp [waiting, pending, hs, hi])
  | exhausted hc hs hi hend hspool => exact .inl (by simp [waiting, pending, hs, hi, hspool])
  | due hs hspool hdue => exact .inl (by simp [waiting, pending, hs])
  | handed hc hs hr hroom => exact .inl (by simp [waiting, pending, hs])
  | handedLast hc hs hr hroom => exact .inl (by simp [waiting, pending, hs])

/-- A turn neither adds nor takes away an end of a queue. -/
theorem ends_turn (h : Turn called now b input output handed b' input' output') :
    input'.senders = input.senders ∧ output'.senders = output.senders ∧
      output'.receiving = output.receiving := by
  cases h <;> exact ⟨rfl, rfl, rfl⟩

theorem items_turn (h : Turn called now b input output handed b' input' output') :
    output'.items = output.items ++ handed.toList := by
  cases h with
  | handed | handedLast => rfl
  | cancelled | kept | filled | drained | exhausted | due | dropped | cancelledWaiting =>
    exact (List.append_nil _).symm

/-- A batch that is handed on is the one that the batcher held. -/
theorem pending_of_handed {batch : Batch}
    (h : Turn called now b input output (some batch) b' input' output') : b.pending = [batch] := by
  cases h with
  | handed hc hs hr hroom => rw [pending, hs]
  | handedLast hc hs hr hroom => rw [pending, hs]

/-- The batch that a tidy batcher holds. -/
theorem Tidy.of_mem_pending {batch : Batch} (h : b.Tidy) (hb : batch ∈ b.pending) :
    0 < batch.size ∧ batch.size ≤ b.size ∧ batch.sequence + 1 = b.next := by
  rw [pending] at hb
  cases hs : b.stage with
  | flushing batch' after =>
    rw [hs] at hb
    obtain rfl := List.mem_singleton.1 hb
    simp only [Tidy, hs] at h
    exact h.2
  | collecting | finished => rw [hs] at hb; exact absurd hb List.not_mem_nil

theorem tidy_start (s : BatcherSettings) (now : Instant) : (start s now).Tidy := by
  show 0 < max s.size 1
  omega

theorem size_turn (h : Turn called now b input output handed b' input' output') : b'.size = b.size := by
  cases h <;> rfl

theorem tidy_turn (h : Turn called now b input output handed b' input' output') (hb : b.Tidy) :
    b'.Tidy := by
  cases h with
  | kept hc hs hi hsize hearly =>
    simp only [Tidy, hs, List.length_append, List.length_singleton]
    exact hsize
  | @filled e rest hc hs hi hdue =>
    simp only [Tidy, hs] at hb
    refine ⟨rfl, ?_, ?_, rfl⟩
    · simp [Batch.size]
    · show (b.spool ++ [e]).length ≤ b.size
      rw [List.length_append, List.length_singleton]
      exact hb
  | drained hc hs hi hend hspool =>
    simp only [Tidy, hs] at hb
    exact ⟨rfl, List.length_pos_iff.2 hspool, Nat.le_of_lt hb, rfl⟩
  | due hs hspool hdue =>
    simp only [Tidy, hs] at hb
    exact ⟨rfl, List.length_pos_iff.2 hspool, Nat.le_of_lt hb, rfl⟩
  | handed hc hs hr hroom =>
    simp only [Tidy, hs] at hb
    show b.spool.length < b.size
    rw [hb.1, List.length_nil]
    omega
  | cancelled | exhausted | handedLast | dropped | cancelledWaiting => trivial

end LogRelay.Batcher
