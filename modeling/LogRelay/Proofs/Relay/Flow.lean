import LogRelay.Proofs.Relay.Passage
import Mathlib.Data.List.Infix

/-!
# Nothing overtakes

Events pass four points of a relay: they are accepted, go into the queue of batches, are
acknowledged, and are recorded.  Whatever happens in between, what has passed a point is the
beginning of what has passed the point before it.  A stage that loses a batch never hands on a later
one.

* `Watched.Spooled`, `Watched.Carried`, `Watched.Recorded`: what lies between two points in a row;
* `Watched.Flow`, `flow_move?`: all three, and that every step keeps them;
* `passes_in_order`: what has passed each point after any run.

Between two points lies what a stage holds and what waits for it, as long as the stage has not
ended.  After that nothing passes the second point any more, and only the order is left.
-/

namespace LogRelay.Watched

/-- Between accepting and batching: a batcher holds what it has taken and not handed on. -/
structure Spooled (accepted : List Event) (batched : List Batch) (batcher : Worker Batcher)
    (events : List Event) : Prop where
  tidy : ∀ b, batcher = .running b → b.Tidy
  /-- Until the batcher has ended, nothing is lost. -/
  whole : ∀ b, batcher = .running b → b.isFinished = false →
    accepted = batched.flatMap Batch.events ++ b.waiting ++ events
  within : batched.flatMap Batch.events <+: accepted
  nonempty : ∀ b ∈ batched, b.isEmpty = false

/-- Between batching and acknowledging: a courier holds the batch that it delivers. -/
structure Carried (batched acknowledged : List Batch) (called : Bool) (courier : Worker Courier)
    (batches : List Batch) : Prop where
  sound : ∀ c, courier = .running c → c.Sound called
  /-- Until the courier takes no more batches, nothing is lost. -/
  whole : ∀ c, courier = .running c → c.verdict? = none → batched = acknowledged ++ c.pending ++ batches
  within : acknowledged <+: batched

/-- Between acknowledging and recording: a courier holds the batch that it hands on. -/
structure Recorded (acknowledged recorded : List Batch) (called : Bool) (courier : Worker Courier)
    (ledger : Worker Ledger) (delivered : Queue Batch) (positions : Positions) : Prop where
  receiving : ∀ l, ledger = .running l → delivered.receiving = true
  /-- The positions of a ledger at work are for all to see. -/
  current : ∀ l, ledger = .running l → l.positions = positions
  /-- Until all is called off or the ledger has ended, nothing is lost. -/
  whole : called = false → ∀ l, ledger = .running l →
    ∃ rest, acknowledged = recorded ++ delivered.items ++ rest ∧
      ∀ c, courier = .running c ∨ courier = .ended c → rest = c.unrecorded
  within : recorded <+: acknowledged
  positions : positions = recorded.foldl Positions.recordBatch ∅

/-- What has passed each point and what lies between fit together. -/
structure Flow (w : Watched) : Prop where
  spooled : Spooled w.passage.accepted w.passage.batched w.relay.batcher w.relay.events.items
  carried : Carried w.passage.batched w.passage.acknowledged w.relay.called w.relay.courier
    w.relay.batches.items
  recorded : Recorded w.passage.acknowledged w.passage.recorded w.relay.called w.relay.courier
    w.relay.ledger w.relay.delivered w.relay.positions

/-! ### Between accepting and batching -/

section

variable {accepted : List Event} {batched : List Batch} {batcher batcher' : Worker Batcher}
  {events events' : List Event} {called : Bool} {now : Instant} {b b' : Batcher}
  {input input' : Queue Event} {output output' : Queue Batch} {handed : Option Batch}

/-- When the batcher is gone, it does not matter what becomes of the queue. -/
theorem Spooled.gone (h : Spooled accepted batched batcher events) (hb : ∀ b, batcher' ≠ .running b) :
    Spooled accepted batched batcher' events' :=
  ⟨fun b hr => absurd hr (hb b), fun b hr => absurd hr (hb b), h.within, h.nonempty⟩

theorem Spooled.accept (h : Spooled accepted batched batcher events) (e : Event) :
    Spooled (accepted ++ [e]) batched batcher (events ++ [e]) := by
  refine ⟨h.tidy, ?_, h.within.trans (List.prefix_append _ _), h.nonempty⟩
  intro b hb hf
  rw [h.whole b hb hf]
  simp only [List.append_assoc]

theorem Spooled.turn (h : Spooled accepted batched (.running b) input.items)
    (ht : b.Turn called now input output handed b' input' output') :
    Spooled accepted (batched ++ handed.toList) (.running b') input'.items := by
  have htidy := h.tidy b rfl
  have hwhole := h.whole b rfl (Batcher.isFinished_of_turn ht)
  have hnonempty : ∀ x ∈ batched ++ handed.toList, x.isEmpty = false := by
    intro x hx
    rcases List.mem_append.1 hx with hx | hx
    · exact h.nonempty x hx
    · obtain rfl := Option.mem_toList.1 hx
      have hpos := (htidy.of_mem_pending (by rw [Batcher.pending_of_handed ht]; exact List.mem_singleton_self x)).1
      exact List.isEmpty_eq_false_iff.2 (List.length_pos_iff.1 hpos)
  have htidy' : ∀ x, Worker.running b' = .running x → x.Tidy := by
    intro x hx
    obtain rfl := Worker.running.inj hx
    exact Batcher.tidy_turn ht htidy
  rcases Batcher.waiting_turn ht with hkept | ⟨-, hfinished, rfl⟩
  · have hall : accepted
        = (batched ++ handed.toList).flatMap Batch.events ++ b'.waiting ++ input'.items := by
      rw [hwhole, List.append_assoc, ← hkept]
      simp only [List.flatMap_append, List.append_assoc]
    refine ⟨htidy', ?_, ?_, hnonempty⟩
    · intro x hx _
      obtain rfl := Worker.running.inj hx
      exact hall
    · rw [hall, List.append_assoc]
      exact List.prefix_append _ _
  · refine ⟨htidy', ?_, ?_, hnonempty⟩
    · intro x hx hf
      obtain rfl := Worker.running.inj hx
      exact absurd (hf.symm.trans hfinished) (by simp)
    · simpa using h.within

end

/-! ### Between batching and acknowledging -/

section

variable {batched acknowledged : List Batch} {called called' : Bool}
  {courier courier' : Worker Courier} {batches batches' : List Batch} {c c' : Courier}
  {d : Delivery}

/-- When the courier is gone, it does not matter what becomes of the queue. -/
theorem Carried.gone (h : Carried batched acknowledged called courier batches)
    (hc : ∀ c, courier' ≠ .running c) : Carried batched acknowledged called' courier' batches' :=
  ⟨fun c hr => absurd hr (hc c), fun c hr => absurd hr (hc c), h.within⟩

theorem Carried.callOff (h : Carried batched acknowledged called courier batches) :
    Carried batched acknowledged true courier batches :=
  ⟨fun c hr => (h.sound c hr).mono fun _ => rfl, h.whole, h.within⟩

/-- More batches come. -/
theorem Carried.append (h : Carried batched acknowledged called courier batches) (bs : List Batch) :
    Carried (batched ++ bs) acknowledged called courier (batches ++ bs) := by
  refine ⟨h.sound, ?_, h.within.trans (List.prefix_append _ _)⟩
  intro c hr hv
  rw [h.whole c hr hv]
  simp only [List.append_assoc]

/-- The courier goes on and holds what it held, or has come to something. -/
theorem Carried.goOn (h : Carried batched acknowledged called (.running c) batches)
    (hs : c'.Sound called)
    (hw : c'.verdict? = none → c.verdict? = none ∧ c'.pending ++ batches' = c.pending ++ batches) :
    Carried batched acknowledged called (.running c') batches' := by
  refine ⟨?_, ?_, h.within⟩
  · intro x hx
    obtain rfl := Worker.running.inj hx
    exact hs
  · intro x hx hv
    obtain rfl := Worker.running.inj hx
    obtain ⟨hv, hp⟩ := hw hv
    rw [h.whole c rfl hv, List.append_assoc, ← hp, List.append_assoc]

theorem Carried.linkTurn (h : Carried batched acknowledged called (.running c) batches)
    (hs : c.stage = .delivering d) {k : Option Batch} (ht : c.LinkTurn called d k c') :
    Carried batched (acknowledged ++ k.toList) called (.running c') batches := by
  have hv : c.verdict? = none := by rw [Courier.verdict?, hs]
  have hp : c.pending = [d.prepared.batch] := by rw [Courier.pending, hs]
  cases ht with
  | ongoing hd hb =>
    rw [Option.toList_none, List.append_nil]
    refine h.goOn ?_ fun _ => ⟨hv, ?_⟩
    · intro x hx
      obtain rfl := CourierStage.delivering.inj hx
      exact hd
    · rw [hp, ← hb]
      rfl
  | acknowledged l =>
    have hwhole := h.whole c rfl hv
    rw [hp] at hwhole
    refine ⟨?_, ?_, ?_⟩
    · intro x hx
      obtain rfl := Worker.running.inj hx
      exact Courier.sound_of_ne (by simp)
    · intro x hx _
      obtain rfl := Worker.running.inj hx
      simpa [Courier.pending] using hwhole
    · rw [hwhole]
      exact List.prefix_append _ _
  | givenUp hv' hr =>
    rw [Option.toList_none, List.append_nil]
    exact h.goOn (Courier.sound_of_ne (Courier.of_verdict? hv').2.2) fun hn =>
      absurd (hv'.symm.trans hn) (by simp)

/-- A courier that turns to its queues is not delivering then, and takes no empty batch. -/
theorem Carried.queueTurn {input input' output output' : Queue Batch}
    (h : Carried batched acknowledged called (.running c) input.items)
    (hne : ∀ b ∈ batched, b.isEmpty = false) (ht : c.QueueTurn called input output c' input' output') :
    Carried batched acknowledged called (.running c') input'.items := by
  cases ht with
  | took hc hs hi hb =>
    refine h.goOn (Courier.sound_of_ne (by simp)) fun _ => ⟨by rw [Courier.verdict?, hs], ?_⟩
    simp [Courier.pending, hs, hi]
  | @tookEmpty l b rest hc hs hi hb =>
    have hwhole := h.whole c rfl (by rw [Courier.verdict?, hs])
    have hmem : b ∈ batched := by rw [hwhole, hi]; simp
    exact absurd ((hne b hmem).symm.trans hb) (by simp)
  | exhausted hc hs hi hend hv =>
    exact h.goOn (Courier.sound_of_ne (Courier.of_verdict? hv).2.2) fun hn =>
      absurd (hv.symm.trans hn) (by simp)
  | cancelled hc hs hv =>
    exact h.goOn (Courier.sound_of_ne (Courier.of_verdict? hv).2.2) fun hn =>
      absurd (hv.symm.trans hn) (by simp)
  | wanted hs | unwanted hs | handed _ hs | dropped _ hs | cancelledWaiting _ hs =>
    refine h.goOn (Courier.sound_of_ne (by simp)) fun _ => ⟨by rw [Courier.verdict?, hs], ?_⟩
    simp [Courier.pending, hs]

end

/-! ### Between acknowledging and recording -/

section

variable {acknowledged recorded : List Batch} {called called' : Bool}
  {courier courier' : Worker Courier} {ledger ledger' : Worker Ledger}
  {delivered delivered' : Queue Batch} {positions : Positions} {c c' : Courier} {d : Delivery}

/-- When the ledger is gone, it does not matter what becomes of all else. -/
theorem Recorded.gone (h : Recorded acknowledged recorded called courier ledger delivered positions)
    (hl : ∀ l, ledger' ≠ .running l) :
    Recorded acknowledged recorded called' courier' ledger' delivered' positions :=
  ⟨fun l hr => absurd hr (hl l), fun l hr => absurd hr (hl l), fun _ l hr => absurd hr (hl l), h.within,
    h.positions⟩

/-- What the courier does elsewhere does not matter, as long as it keeps the batch that is to be
recorded. -/
theorem Recorded.frame (h : Recorded acknowledged recorded called courier ledger delivered positions)
    (hcalled : called' = false → called = false) (hi : delivered'.items = delivered.items)
    (hr : delivered'.receiving = delivered.receiving)
    (hc : ∀ c', courier' = .running c' ∨ courier' = .ended c' →
      ∃ c, (courier = .running c ∨ courier = .ended c) ∧ c'.unrecorded = c.unrecorded) :
    Recorded acknowledged recorded called' courier' ledger delivered' positions := by
  refine ⟨fun l hl => hr.trans (h.receiving l hl), h.current, ?_, h.within, h.positions⟩
  intro hn l hl
  obtain ⟨rest, hrest, hunrecorded⟩ := h.whole (hcalled hn) l hl
  refine ⟨rest, by rw [hi]; exact hrest, ?_⟩
  intro c' hc'
  obtain ⟨c, hrun, heq⟩ := hc c' hc'
  rw [heq]
  exact hunrecorded c hrun

/-- A courier goes on and keeps the batch that is to be recorded. -/
theorem Recorded.goOn (h : Recorded acknowledged recorded called (.running c) ledger delivered positions)
    (hu : c'.unrecorded = c.unrecorded) :
    Recorded acknowledged recorded called (.running c') ledger delivered positions := by
  refine h.frame id rfl rfl fun x hx => ⟨c, .inl rfl, ?_⟩
  rcases hx with hx | hx
  · obtain rfl := Worker.running.inj hx
    exact hu
  · exact absurd hx (by simp)

theorem Recorded.linkTurn (h : Recorded acknowledged recorded called (.running c) ledger delivered positions)
    (hs : c.stage = .delivering d) {k : Option Batch} (ht : c.LinkTurn called d k c') :
    Recorded (acknowledged ++ k.toList) recorded called (.running c') ledger delivered positions := by
  have hu : c.unrecorded = [] := by rw [Courier.unrecorded, hs]
  cases ht with
  | ongoing hd hb =>
    rw [Option.toList_none, List.append_nil]
    exact h.goOn hu.symm
  | givenUp hv hr =>
    rw [Option.toList_none, List.append_nil]
    exact h.goOn ((Courier.of_verdict? hv).2.1.trans hu.symm)
  | acknowledged l =>
    refine ⟨h.receiving, h.current, ?_, h.within.trans (List.prefix_append _ _), h.positions⟩
    intro hn l' hl
    obtain ⟨rest, hrest, hunrecorded⟩ := h.whole hn l' hl
    obtain rfl : rest = [] := (hunrecorded c (.inl rfl)).trans hu
    refine ⟨[d.prepared.batch], by rw [hrest, List.append_nil, Option.toList_some], ?_⟩
    intro x hx
    rcases hx with hx | hx
    · obtain rfl := Worker.running.inj hx
      rfl
    · exact absurd hx (by simp)

theorem Recorded.queueTurn {input input' output output' : Queue Batch}
    (h : Recorded acknowledged recorded called (.running c) ledger output positions)
    (hne : ∀ l b, c.stage = .ready l → b ∈ input.items → b.isEmpty = false)
    (ht : c.QueueTurn called input output c' input' output') :
    Recorded acknowledged recorded called (.running c') ledger output' positions := by
  cases ht with
  | took hc hs hi hb =>
    refine h.goOn ?_
    simp only [Courier.unrecorded, hs]
  | @tookEmpty l b rest hc hs hi hb =>
    exact absurd ((hne l b hs (by rw [hi]; exact List.mem_cons_self)).symm.trans hb) (by simp)
  | exhausted hc hs hi hend hv =>
    refine h.goOn ((Courier.of_verdict? hv).2.1.trans ?_)
    simp only [Courier.unrecorded, hs]
  | cancelled hc hs hv =>
    refine h.goOn ((Courier.of_verdict? hv).2.1.trans ?_)
    simp only [Courier.unrecorded, hs]
  | wanted hs hr =>
    refine h.goOn ?_
    simp only [Courier.unrecorded, hs]
  | unwanted hs hr =>
    -- a queue that nobody receives from has no ledger at work behind it
    exact h.gone fun l hl => absurd ((h.receiving l hl).symm.trans hr) (by simp)
  | dropped hc hs hr => exact h.gone fun l hl => absurd ((h.receiving l hl).symm.trans hr) (by simp)
  | @handed l b hc hs hr hroom =>
    refine ⟨fun l hl => hr, h.current, ?_, h.within, h.positions⟩
    intro hn l' hl
    obtain ⟨rest, hrest, hunrecorded⟩ := h.whole hn l' hl
    obtain rfl : rest = [b] := (hunrecorded c (.inl rfl)).trans (by rw [Courier.unrecorded, hs])
    refine ⟨[], by rw [hrest, List.append_nil, List.append_assoc], ?_⟩
    intro x hx
    rcases hx with hx | hx
    · obtain rfl := Worker.running.inj hx
      rfl
    · exact absurd hx (by simp)
  | cancelledWaiting hc hs =>
    refine ⟨h.receiving, h.current, ?_, h.within, h.positions⟩
    intro hn
    exact absurd (hn.symm.trans hc) (by simp)

/-- The ledger records the oldest batch of its queue. -/
theorem Recorded.record {l : Ledger} {b : Batch} {rest : List Batch} (hcalled : called = false)
    (h : Recorded acknowledged recorded called courier (.running l) delivered positions)
    (hi : delivered.items = b :: rest) :
    Recorded acknowledged (recorded ++ [b]) called courier
      (.running { l with positions := l.positions.recordBatch b }) { delivered with items := rest }
      (l.positions.recordBatch b) := by
  obtain ⟨unrecorded, hall, hunrecorded⟩ := h.whole hcalled l rfl
  have hall' : acknowledged = (recorded ++ [b]) ++ rest ++ unrecorded := by
    rw [hall, hi]
    simp only [List.append_assoc, List.cons_append, List.nil_append]
  refine ⟨fun l' hl => h.receiving l rfl, ?_, fun _ l' hl => ⟨unrecorded, hall', hunrecorded⟩, ?_, ?_⟩
  · intro l' hl
    obtain rfl := Worker.running.inj hl
    rfl
  · rw [hall', List.append_assoc]
    exact List.prefix_append _ _
  · rw [List.foldl_append, ← h.positions, h.current l rfl]
    rfl

end

/-! ### Steps -/

section

variable {w w' : Watched} {r : Relay} {p : Passage}

theorem Flow.callOff (h : Flow ⟨r, p⟩) : Flow ⟨{ r with called := true }, p⟩ := by
  refine ⟨h.spooled, h.carried.callOff, ?_⟩
  exact h.recorded.frame (by simp) rfl rfl fun c hc => ⟨c, hc, rfl⟩

/-- The batcher is gone. -/
theorem Flow.releaseBatcher (h : Flow ⟨r, p⟩) {batcher : Worker Batcher}
    (hb : ∀ b, batcher ≠ .running b) :
    Flow ⟨{ r with batcher }.releaseBatcher, p⟩ :=
  ⟨h.spooled.gone hb, h.carried, h.recorded⟩

/-- The courier is gone, but what was to be recorded is as it was. -/
theorem Flow.releaseCourier (h : Flow ⟨r, p⟩) {courier : Worker Courier}
    (hc : ∀ c, courier ≠ .running c)
    (hu : ∀ c, courier = .ended c → r.courier = .running c) :
    Flow ⟨{ r with courier }.releaseCourier, p⟩ := by
  refine ⟨h.spooled, h.carried.gone hc, h.recorded.frame id rfl rfl fun c hrun => ⟨c, .inl ?_, rfl⟩⟩
  rcases hrun with hrun | hended
  · exact absurd hrun (hc c)
  · exact hu c hended

/-- The ledger is gone. -/
theorem Flow.releaseLedger (h : Flow ⟨r, p⟩) {ledger : Worker Ledger} (hl : ∀ l, ledger ≠ .running l) :
    Flow ⟨{ r with ledger }.releaseLedger, p⟩ :=
  ⟨h.spooled, h.carried, h.recorded.gone hl⟩

theorem Flow.setBatcher {b : Batcher} (h : Flow ⟨{ r with batcher := .running b }, p⟩) :
    Flow ⟨r.setBatcher b, p⟩ := by
  cases hf : b.isFinished with
  | true =>
    rw [Relay.setBatcher_of_finished hf]
    exact h.releaseBatcher (by simp)
  | false =>
    rw [Relay.setBatcher_of_not_finished hf]
    exact h

theorem Flow.setCourier {c : Courier} (h : Flow ⟨{ r with courier := .running c }, p⟩) :
    Flow ⟨r.setCourier c, p⟩ := by
  have hended (x : Courier) (hx : Worker.ended c = .ended x) : Worker.running c = .running x := by
    rw [Worker.ended.inj hx]
  rcases r.setCourier_cases c with ⟨-, heq⟩ | ⟨-, heq⟩ | ⟨f, -, heq⟩
  · rw [heq]
    exact h
  · rw [heq]
    exact h.releaseCourier (by simp) hended
  · rw [heq]
    exact h.callOff.releaseCourier (by simp) hended

/-- A step by which nothing passes. -/
theorem passage_of_passing {m : Move} (h : w.move? m = some w') (hp : w.relay.passing m = {}) :
    ∃ notices r', w.relay.move? m = some (notices, r') ∧ w' = ⟨r', w.passage⟩ := by
  obtain ⟨notices, hm, hpassage⟩ := exists_of_move? h
  refine ⟨notices, w'.relay, hm, ?_⟩
  rw [hp, Passage.append_empty] at hpassage
  rw [← hpassage]

theorem Flow.batcherTurn (h : w.Flow) (hm : w.move? (.stage .batcher) = some w') : w'.Flow := by
  obtain ⟨notices, hr, hp⟩ := exists_of_move? hm
  obtain ⟨b, b', input, output, hb, ht, hr'⟩ := Relay.move?_batcher hr
  obtain ⟨r', p'⟩ := w'
  subst hr'
  have hpassing : w.relay.passing (.stage .batcher)
      = { batched := (b.handsOn? w.relay.called w.relay.batches).toList } := by
    simp only [Relay.passing, hb]
  rw [hpassing] at hp
  subst hp
  have hout : output.items = w.relay.batches.items ++ (b.handsOn? w.relay.called w.relay.batches).toList :=
    Batcher.items_turn ht
  have hspooled := h.spooled
  rw [hb] at hspooled
  refine Flow.setBatcher ⟨?_, ?_, ?_⟩
  · simpa using hspooled.turn ht
  · simpa [hout] using h.carried.append _
  · simpa using h.recorded

theorem Flow.courierTurn (h : w.Flow) (hm : w.move? (.stage .courier) = some w') : w'.Flow := by
  obtain ⟨notices, r', hr, rfl⟩ := passage_of_passing hm rfl
  obtain ⟨c, c', input, output, hc, ht, rfl⟩ := Relay.move?_courier hr
  have hcarried := h.carried
  have hrecorded := h.recorded
  rw [hc] at hcarried hrecorded
  refine Flow.setCourier ⟨h.spooled, hcarried.queueTurn h.spooled.nonempty ht,
    hrecorded.queueTurn ?_ ht⟩
  intro l b hs hb
  refine h.spooled.nonempty b ?_
  rw [hcarried.whole c rfl (by rw [Courier.verdict?, hs])]
  exact List.mem_append_right _ hb

theorem Flow.nonce {bs : Bytes} (h : w.Flow) (hm : w.move? (.nonce bs) = some w') : w'.Flow := by
  obtain ⟨notices, r', hr, rfl⟩ := passage_of_passing hm rfl
  obtain ⟨c, l, b, hc, hs, -, rfl⟩ := Relay.move?_nonce hr
  have hcarried := h.carried
  have hrecorded := h.recorded
  rw [hc] at hcarried hrecorded
  rw [Courier.next_answer_nonce hs]
  refine Flow.setCourier ⟨h.spooled, hcarried.goOn ?_ fun _ => ⟨?_, ?_⟩, hrecorded.goOn ?_⟩
  · intro d hd
    obtain rfl := CourierStage.delivering.inj hd
    exact Delivery.sound_start _ _ _
  · rw [Courier.verdict?, hs]
  · simp only [Courier.pending, hs]
    rfl
  · simp only [Courier.unrecorded, hs]

theorem Flow.link {a : LinkAnswer} (h : w.Flow) (hm : w.move? (.link a) = some w') : w'.Flow := by
  obtain ⟨notices, hr, hp⟩ := exists_of_move? hm
  obtain ⟨c, want, hc, hw, hfit, hcall, hr'⟩ := Relay.move?_link hr
  obtain ⟨r', p'⟩ := w'
  subst hr'
  have hpassing : w.relay.passing (.link a) = { acknowledged := (c.acknowledged? a).toList } := by
    simp only [Relay.passing, hc]
  rw [hpassing] at hp
  subst hp
  have hcarried := h.carried
  have hrecorded := h.recorded
  rw [hc] at hcarried hrecorded
  rcases Courier.stage_of_want_link hw with ⟨d, hs, rfl⟩ | ⟨o, v, hs, rfl⟩
  · have ht := Courier.linkTurn_delivering hs (hcarried.sound c rfl d hs) hfit hcall
    refine Flow.setCourier ⟨?_, ?_, ?_⟩
    · simpa using h.spooled
    · simpa using hcarried.linkTurn hs ht
    · simpa using hrecorded.linkTurn hs ht
  · -- the link is being closed: nothing is acknowledged any more
    have hv := Courier.verdict?_answer_closing (a := a) hs
    have hv₀ : c.verdict? = some v := by rw [Courier.verdict?, hs]
    have hnone : c.acknowledged? a = none := by simp only [Courier.acknowledged?, hs]
    refine Flow.setCourier ⟨?_, ?_, ?_⟩
    · simpa using h.spooled
    · simpa [hnone] using hcarried.goOn (Courier.sound_of_ne (Courier.of_verdict? hv).2.2)
        fun hn => absurd (hv.symm.trans hn) (by simp)
    · simpa [hnone] using hrecorded.goOn ((Courier.of_verdict? hv).2.1.trans (Courier.of_verdict? hv₀).2.1.symm)

theorem Flow.ledgerTurn (h : w.Flow) (hm : w.move? (.stage .ledger) = some w') : w'.Flow := by
  obtain ⟨notices, hr, hp⟩ := exists_of_move? hm
  obtain ⟨r', p'⟩ := w'
  obtain ⟨l, hl, -, ⟨b, rest, hc, hi, hb, hr'⟩ | ⟨-, hb, hr'⟩⟩ := Relay.move?_ledger hr
  · subst hr'
    have hpassing : w.relay.passing (.stage .ledger) = { recorded := [b] } := by
      simp only [Relay.passing, hb, Option.toList_some]
    rw [hpassing] at hp
    subst hp
    have hrecorded := h.recorded
    rw [hl] at hrecorded
    refine ⟨?_, ?_, ?_⟩
    · simpa using h.spooled
    · simpa using h.carried
    · simpa using hrecorded.record hc hi
  · subst hr'
    have hpassing : w.relay.passing (.stage .ledger) = {} := by
      simp only [Relay.passing, hb, Option.toList_none]
    rw [hpassing, Passage.append_empty] at hp
    subst hp
    exact Flow.releaseLedger h (by simp)

/-- **Every step keeps the flow.** -/
theorem flow_move? {m : Move} (h : w.Flow) (hm : w.move? m = some w') : w'.Flow := by
  cases m with
  | stage s =>
    cases s with
    | batcher => exact h.batcherTurn hm
    | courier => exact h.courierTurn hm
    | ledger => exact h.ledgerTurn hm
  | nonce bs => exact h.nonce hm
  | link a => exact h.link hm
  | accept e =>
    obtain ⟨notices, hr, hp⟩ := exists_of_move? hm
    obtain ⟨-, -, -, hr'⟩ := Relay.move?_accept hr
    obtain ⟨r', p'⟩ := w'
    subst hr'
    subst hp
    refine ⟨?_, ?_, ?_⟩
    · simpa [Relay.passing] using h.spooled.accept e
    · simpa [Relay.passing] using h.carried
    · simpa [Relay.passing] using h.recorded
  | announce =>
    obtain ⟨notices, r', hr, rfl⟩ := passage_of_passing hm rfl
    obtain ⟨-, rfl⟩ := Relay.move?_announce hr
    exact ⟨h.spooled, h.carried, h.recorded⟩
  | addProducer =>
    obtain ⟨notices, r', hr, rfl⟩ := passage_of_passing hm rfl
    obtain ⟨-, rfl⟩ := Relay.move?_addProducer hr
    exact ⟨h.spooled, h.carried, h.recorded⟩
  | dropProducer =>
    obtain ⟨notices, r', hr, rfl⟩ := passage_of_passing hm rfl
    obtain ⟨-, rfl⟩ := Relay.move?_dropProducer hr
    exact ⟨h.spooled, h.carried, h.recorded⟩
  | call =>
    obtain ⟨notices, r', hr, rfl⟩ := passage_of_passing hm rfl
    obtain rfl := Relay.move?_call hr
    exact ⟨h.spooled, h.carried, h.recorded⟩
  | pass d =>
    obtain ⟨notices, r', hr, rfl⟩ := passage_of_passing hm rfl
    obtain rfl := Relay.move?_pass hr
    exact ⟨h.spooled, h.carried, h.recorded⟩
  | stop =>
    obtain ⟨notices, r', hr, rfl⟩ := passage_of_passing hm rfl
    rcases Relay.move?_stop hr with rfl | ⟨-, rfl⟩
    · exact h
    · have hcalled := h.callOff
      exact ⟨hcalled.spooled, hcalled.carried, hcalled.recorded⟩
  | die s reason =>
    obtain ⟨notices, r', hr, rfl⟩ := passage_of_passing hm rfl
    rcases Relay.move?_die hr with ⟨-, rfl⟩ | ⟨-, rfl⟩ | ⟨-, rfl⟩
    · exact h.releaseBatcher (by simp)
    · exact h.releaseCourier (by simp) (by simp)
    · exact h.releaseLedger (by simp)
  | supervise =>
    obtain ⟨notices, r', hr, rfl⟩ := passage_of_passing hm rfl
    obtain ⟨p, ⟨-, rfl⟩ | ⟨-, -, rfl⟩ | ⟨-, -, rfl⟩⟩ := Relay.move?_supervise hr
    · exact ⟨h.spooled, h.carried, h.recorded⟩
    · exact ⟨h.spooled, h.carried, h.recorded⟩
    · exact ⟨h.spooled, h.carried, h.recorded⟩

end

/-! ### Runs -/

section

variable {capacities : Capacities} {settings : BatcherSettings} {keys : Keys} {l : Link}
  {now : Instant} {ms : List Move} {w w' : Watched}

theorem flow_start (capacities : Capacities) (settings : BatcherSettings) (keys : Keys) (l : Link)
    (now : Instant) : (start capacities settings keys l now).Flow where
  spooled := by
    refine ⟨?_, ?_, List.prefix_refl _, by simp [start]⟩
    · intro b hb
      obtain rfl := Worker.running.inj hb
      exact Batcher.tidy_start settings now
    · intro b hb _
      obtain rfl := Worker.running.inj hb
      rfl
  carried := by
    refine ⟨?_, ?_, List.prefix_refl _⟩
    · intro c hc
      obtain rfl := Worker.running.inj hc
      exact Courier.sound_of_ne (by simp [Courier.start])
    · intro c hc _
      obtain rfl := Worker.running.inj hc
      rfl
  recorded := by
    refine ⟨fun _ _ => rfl, ?_, ?_, List.prefix_refl _, rfl⟩
    · intro l' hl
      obtain rfl := Worker.running.inj hl
      rfl
    · intro _ l' _
      refine ⟨[], rfl, ?_⟩
      intro c hc
      rcases hc with hc | hc
      · obtain rfl := Worker.running.inj hc
        rfl
      · exact absurd hc (by simp [start, Relay.start])

theorem flow_run? (h : w.run? ms = some w') (hw : w.Flow) : w'.Flow :=
  runSteps_induction (fun _ _ _ hw hm => flow_move? hw hm) h hw

/-- The positions are those of all events that are recorded. -/
theorem Flow.positions_eq (h : w.Flow) :
    w.relay.positions = (w.passage.recorded.flatMap Batch.events).foldl Positions.record ∅ := by
  rw [List.foldl_flatMap]
  exact h.recorded.positions

/-- **After any run, the recorded events are the beginning of the acknowledged ones, these of the
batched ones, and these of the accepted ones**, whatever the order of the steps, the answers of the
sockets, deaths of stages, and the moment of calling off.  The positions are those of the recorded
events. -/
theorem passes_in_order (h : (start capacities settings keys l now).run? ms = some w) :
    w.passage.recorded.flatMap Batch.events <+: w.passage.acknowledged.flatMap Batch.events ∧
      w.passage.acknowledged.flatMap Batch.events <+: w.passage.batched.flatMap Batch.events ∧
      w.passage.batched.flatMap Batch.events <+: w.passage.accepted ∧
      w.relay.positions = (w.passage.recorded.flatMap Batch.events).foldl Positions.record ∅ := by
  have hflow := flow_run? h (flow_start capacities settings keys l now)
  exact ⟨hflow.recorded.within.flatMap _, hflow.carried.within.flatMap _, hflow.spooled.within,
    hflow.positions_eq⟩

end

/-! ### A run that ends early -/

/-- The link of a relay with one collector. -/
def oneCollector : Link where
  servers := ⟨[⟨"tcp://collector:5005"⟩], Nat.zero_lt_one⟩
  limits := LinkSettings.limits { servers := ⟨[⟨"tcp://collector:5005"⟩], Nat.zero_lt_one⟩ }
  reconnect := default

def lineRead (n : Nat) : Event := .read 0 "log" (.ofNat (5 * n)) (.ofNat n) "line"

/-- A relay that has just been started and makes a batch of every event. -/
def lineByLine : Watched := start {} { size := 1 } ⟨.zero, .zero⟩ oneCollector 0

/-- A call of the courier's link succeeds. -/
def callDone : List Move := [.call, .link (.outcome (.done []))]

/-- An event is accepted and goes into the queue of batches. -/
def spoolLine (n : Nat) : List Move := [.accept (lineRead n), .stage .batcher, .stage .batcher]

/-- The courier takes a batch. -/
def takeBatch : List Move := [.stage .courier, .nonce (List.replicate nonceSize 0)]

/-- The courier's link gets a session. -/
def connect : List Move := [.link (.socket (.ok ())), .link (.picked ⟨"tcp://collector:5005"⟩)] ++ callDone

/-- The courier sends two frames and gets a reply. -/
def exchange : List Move := callDone ++ callDone ++ callDone

/-- The courier hands on a delivered batch, and the ledger records it. -/
def recordBatch : List Move := [.stage .courier, .stage .courier, .stage .ledger]

/-- Of four lines one is recorded, one more acknowledged, one more batched, and one only accepted
when the courier dies. -/
def cutShort : List Move :=
  spoolLine 1 ++ takeBatch ++ connect ++ exchange ++ recordBatch ++ spoolLine 2 ++ takeBatch ++ exchange ++
    spoolLine 3 ++ [.accept (lineRead 4), .die .courier "lost"]

theorem passes_in_order_cutShort :
    ∃ w, lineByLine.run? cutShort = some w ∧
      w.passage.recorded.flatMap Batch.events = [lineRead 1] ∧
      w.passage.acknowledged.flatMap Batch.events = [lineRead 1, lineRead 2] ∧
      w.passage.batched.flatMap Batch.events = [lineRead 1, lineRead 2, lineRead 3] ∧
      w.passage.accepted = [lineRead 1, lineRead 2, lineRead 3, lineRead 4] ∧
      w.relay.positions = [lineRead 1].foldl Positions.record ∅ := by
  obtain ⟨w, hw⟩ : ∃ w, lineByLine.run? cutShort = some w := Option.isSome_iff_exists.1 rfl
  have hpassage : (lineByLine.run? cutShort).map Watched.passage
      = some ⟨[lineRead 1, lineRead 2, lineRead 3, lineRead 4],
          [⟨0, [lineRead 1]⟩, ⟨1, [lineRead 2]⟩, ⟨2, [lineRead 3]⟩],
          [⟨0, [lineRead 1]⟩, ⟨1, [lineRead 2]⟩], [⟨0, [lineRead 1]⟩]⟩ := rfl
  rw [hw] at hpassage
  have hp : w.passage = _ := Option.some.inj hpassage
  have hpositions := (passes_in_order hw).2.2.2
  refine ⟨w, hw, ?_⟩
  rw [hp] at hpositions ⊢
  exact ⟨rfl, rfl, rfl, rfl, hpositions⟩

end LogRelay.Watched
