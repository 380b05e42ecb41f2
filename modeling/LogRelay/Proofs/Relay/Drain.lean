import LogRelay.Proofs.Relay.Flow

/-!
# Nothing is lost when the producers leave

A relay that is not called off, and none of whose stages dies, comes to a good end only after all
that was accepted has been recorded.  Each stage ends when the stage before it has ended and the
queue in between is empty; a courier that ends otherwise has a fault, and the relay does not come to
a good end.

* `Watched.Numbered`: the batches have the numbers from zero on, and none is empty or too large;
* `Watched.Supervised`: what the supervisor has seen is so;
* `Watched.Orderly`: a relay that is not called off and has no fault, with what each stage leaves
  behind;
* `Watched.Faulted`: a relay whose courier has ended with a fault;
* `drains`: what a good end of a relay tells.
-/

namespace LogRelay

/-- Whether a step ends a relay or a stage of it by force. -/
def Move.breaksOff : Move → Bool
  | .stop | .die _ _ => true
  | _ => false

namespace Watched

/-! ### Numbers and sizes of batches -/

/-- The batches up to now have the numbers from zero on, and none is empty or larger than `size`. -/
structure Numbered (size : Nat) (batched : List Batch) (batcher : Worker Batcher) : Prop where
  next : ∀ b, batcher = .running b → b.size = size ∧
    (b.isFinished = false → b.next = batched.length + b.pending.length)
  sequences : batched.map Batch.sequence = List.range batched.length
  sizes : ∀ x ∈ batched, 0 < x.size ∧ x.size ≤ size

section

variable {size : Nat} {batched : List Batch} {batcher batcher' : Worker Batcher} {called : Bool}
  {now : Instant} {b b' : Batcher} {input input' : Queue Event} {output output' : Queue Batch}
  {handed : Option Batch} {w w' : Watched} {m : Move}

theorem Numbered.gone (h : Numbered size batched batcher) (hb : ∀ b, batcher' ≠ .running b) :
    Numbered size batched batcher' :=
  ⟨fun b hr => absurd hr (hb b), h.sequences, h.sizes⟩

/-- A batch goes into the queue that has the next number. -/
theorem Numbered.hand {batch : Batch} (h : Numbered size batched (.running b)) (htidy : b.Tidy)
    (hp : b.pending = [batch]) (hf : b.isFinished = false) :
    (batched ++ [batch]).map Batch.sequence = List.range (batched ++ [batch]).length ∧
      ∀ x ∈ batched ++ [batch], 0 < x.size ∧ x.size ≤ size := by
  obtain ⟨hsize, hnext⟩ := h.next b rfl
  have hbatch := htidy.of_mem_pending (by rw [hp]; exact List.mem_singleton_self batch)
  have hnumber : batch.sequence = batched.length := by
    have := hnext hf
    rw [hp, List.length_singleton] at this
    omega
  refine ⟨?_, ?_⟩
  · rw [List.map_append, h.sequences, List.length_append, List.length_singleton, List.range_succ,
      ← hnumber]
    rfl
  · intro x hx
    rcases List.mem_append.1 hx with hx | hx
    · exact h.sizes x hx
    · obtain rfl := List.mem_singleton.1 hx
      exact ⟨hbatch.1, hsize ▸ hbatch.2.1⟩

theorem Numbered.turn (h : Numbered size batched (.running b)) (htidy : b.Tidy)
    (ht : b.Turn called now input output handed b' input' output') :
    Numbered size (batched ++ handed.toList) (.running b') := by
  obtain ⟨hsize, hnext⟩ := h.next b rfl
  have hf := Batcher.isFinished_of_turn ht
  have hnext := hnext hf
  have hsize' : b'.size = size := (Batcher.size_turn ht).trans hsize
  -- what is handed on keeps the numbers; it remains to find the next one
  suffices hb' : b'.isFinished = false → b'.next = (batched ++ handed.toList).length + b'.pending.length by
    have hrunning (x : Batcher) (hx : Worker.running b' = .running x) : x.size = size ∧
        (x.isFinished = false → x.next = (batched ++ handed.toList).length + x.pending.length) := by
      obtain rfl := Worker.running.inj hx
      exact ⟨hsize', hb'⟩
    cases hh : handed with
    | none =>
      rw [hh] at hrunning
      refine ⟨hrunning, ?_, ?_⟩
      · simpa using h.sequences
      · simpa using h.sizes
    | some batch =>
      rw [hh] at hrunning ht
      have hp := Batcher.pending_of_handed ht
      exact ⟨hrunning, (h.hand htidy hp hf).1, (h.hand htidy hp hf).2⟩
  intro hf'
  cases ht with
  | kept hc hs hi hsize hearly => simpa [Batcher.pending, hs] using hnext
  | filled hc hs hi hdue => simpa [Batcher.pending, hs] using hnext
  | drained hc hs hi hend hspool => simpa [Batcher.pending, hs] using hnext
  | due hs hspool hdue => simpa [Batcher.pending, hs] using hnext
  | handed hc hs hr hroom => simpa [Batcher.pending, hs] using hnext
  | cancelled | exhausted | handedLast | dropped | cancelledWaiting =>
    exact absurd hf' (by simp [Batcher.isFinished])

/-- No step disturbs the numbers. -/
theorem numbered_move? (h : Numbered size w.passage.batched w.relay.batcher) (hflow : w.Flow)
    (hm : w.move? m = some w') : Numbered size w'.passage.batched w'.relay.batcher := by
  obtain ⟨notices, hr, hp⟩ := exists_of_move? hm
  rw [hp]
  cases m with
  | stage s =>
    cases s with
    | batcher =>
      obtain ⟨b, b', input, output, hb, ht, hr'⟩ := Relay.move?_batcher hr
      rw [hb] at h
      have hturn := h.turn (hflow.spooled.tidy b hb) ht
      have hpassing : (w.passage ++ w.relay.passing (.stage .batcher)).batched
          = w.passage.batched ++ (b.handsOn? w.relay.called w.relay.batches).toList := by
        simp only [Passage.batched_append, Relay.passing, hb]
      rw [hpassing, hr']
      cases hf : b'.isFinished with
      | true =>
        rw [Relay.setBatcher_of_finished hf]
        exact hturn.gone (by simp [Relay.releaseBatcher])
      | false =>
        rw [Relay.setBatcher_of_not_finished hf]
        exact hturn
    | courier =>
      obtain ⟨c, c', input, output, -, -, hr'⟩ := Relay.move?_courier hr
      simpa [hr', Relay.passing] using h
    | ledger =>
      obtain ⟨l, -, -, ⟨b, rest, -, -, -, hr'⟩ | ⟨-, -, hr'⟩⟩ := Relay.move?_ledger hr
      · simpa [hr', Relay.passing] using h
      · simpa [hr', Relay.passing, Relay.releaseLedger] using h
  | accept e =>
    obtain ⟨-, -, -, hr'⟩ := Relay.move?_accept hr
    simpa [hr', Relay.passing] using h
  | nonce bs =>
    obtain ⟨c, l, b, -, -, -, hr'⟩ := Relay.move?_nonce hr
    simpa [hr', Relay.passing] using h
  | link a =>
    obtain ⟨c, want, hc, -, -, -, hr'⟩ := Relay.move?_link hr
    simpa [hr', Relay.passing, hc] using h
  | announce =>
    obtain ⟨-, hr'⟩ := Relay.move?_announce hr
    simpa [hr', Relay.passing] using h
  | addProducer =>
    obtain ⟨-, hr'⟩ := Relay.move?_addProducer hr
    simpa [hr', Relay.passing] using h
  | dropProducer =>
    obtain ⟨-, hr'⟩ := Relay.move?_dropProducer hr
    simpa [hr', Relay.passing] using h
  | call => simpa [Relay.move?_call hr, Relay.passing] using h
  | pass d => simpa [Relay.move?_pass hr, Relay.passing] using h
  | stop =>
    rcases Relay.move?_stop hr with hr' | ⟨-, hr'⟩
    · simpa [hr', Relay.passing] using h
    · simpa [hr', Relay.passing] using h
  | die s reason =>
    rcases Relay.move?_die hr with ⟨-, hr'⟩ | ⟨-, hr'⟩ | ⟨-, hr'⟩
    · rw [hr']
      simpa [Relay.passing, Relay.releaseBatcher] using h.gone (by simp)
    · simpa [hr', Relay.passing, Relay.releaseCourier] using h
    · simpa [hr', Relay.passing, Relay.releaseLedger] using h
  | supervise =>
    obtain ⟨p, ⟨-, hr'⟩ | ⟨-, -, hr'⟩ | ⟨-, -, hr'⟩⟩ := Relay.move?_supervise hr
    · simpa [hr', Relay.passing] using h
    · simpa [hr', Relay.passing] using h
    · simpa [hr', Relay.passing] using h

end

/-! ### What the supervisor has seen -/

/-- A supervisor goes on only when a stage has ended, and keeps what the courier came to. -/
structure Supervised (r : Relay) : Prop where
  published : ∀ p, r.supervisor = .awaitingBatcher p ∨ r.supervisor = .awaitingLedger p ∨
    r.supervisor = .ended p → r.published? = some p
  batcher : ∀ p, r.supervisor = .awaitingLedger p ∨ r.supervisor = .ended p →
    r.batcher.isRunning = false
  ledger : ∀ p, r.supervisor = .ended p → r.ledger.isRunning = false ∧ r.status = .stopped

section

variable {r r' : Relay} {m : Move} {notices : List RelayNotice}

theorem isRunning_of_published? {p : Except RelayFault Unit} (h : r.published? = some p) :
    r.courier.isRunning = false := by
  rw [Relay.published?] at h
  cases hc : r.courier with
  | running c => rw [hc] at h; exact absurd h (by simp)
  | ended | died => rfl

/-- A stage that has ended stays as it is, and so does what the supervisor has seen of it. -/
theorem Supervised.frame (h : Supervised r) (hs : r'.supervisor = r.supervisor)
    (ht : r.status = .stopped → r'.status = .stopped)
    (hb : r.batcher.isRunning = false → r'.batcher = r.batcher)
    (hc : r.courier.isRunning = false → r'.courier = r.courier)
    (hl : r.ledger.isRunning = false → r'.ledger = r.ledger) : Supervised r' := by
  refine ⟨?_, ?_, ?_⟩
  · intro p hp
    rw [hs] at hp
    have hpub := h.published p hp
    rw [← hpub, Relay.published?, Relay.published?, hc (isRunning_of_published? hpub)]
  · intro p hp
    rw [hs] at hp
    have hrun := h.batcher p hp
    rw [hb hrun]
    exact hrun
  · intro p hp
    rw [hs] at hp
    obtain ⟨hrun, hstatus⟩ := h.ledger p hp
    rw [hl hrun]
    exact ⟨hrun, ht hstatus⟩

/-- No step disturbs what the supervisor has seen. -/
theorem supervised_move? (h : Supervised r) (hm : r.move? m = some (notices, r')) : Supervised r' := by
  obtain ⟨hb, hc, hl⟩ := Relay.ended_move? hm
  cases m with
  | announce =>
    obtain ⟨-, rfl⟩ := Relay.move?_announce hm
    exact ⟨by simp, by simp, by simp⟩
  | supervise =>
    obtain ⟨p, ⟨hp, rfl⟩ | ⟨hs, hrun, rfl⟩ | ⟨hs, hrun, rfl⟩⟩ := Relay.move?_supervise hm
    · refine ⟨?_, by simp, by simp⟩
      intro q hq
      obtain rfl : p = q := by simpa using hq
      exact hp
    · refine ⟨?_, fun _ _ => hrun, by simp⟩
      intro q hq
      obtain rfl : p = q := by simpa using hq
      exact h.published p (.inl hs)
    · refine ⟨?_, ?_, fun q _ => ⟨hrun, rfl⟩⟩
      · intro q hq
        obtain rfl : p = q := by simpa using hq
        exact h.published p (.inr (.inl hs))
      · intro q hq
        exact h.batcher p (.inl hs)
  | stage s =>
    cases s with
    | batcher =>
      obtain ⟨b, b', input, output, -, -, rfl⟩ := Relay.move?_batcher hm
      exact h.frame (by simp) (by simp) hb hc hl
    | courier =>
      obtain ⟨c, c', input, output, -, -, rfl⟩ := Relay.move?_courier hm
      exact h.frame (by simp) (by simp) hb hc hl
    | ledger =>
      obtain ⟨l, -, -, ⟨b, rest, -, -, -, rfl⟩ | ⟨-, -, rfl⟩⟩ := Relay.move?_ledger hm
      · exact h.frame rfl id hb hc hl
      · exact h.frame rfl id hb hc hl
  | nonce bs =>
    obtain ⟨c, l, b, -, -, -, rfl⟩ := Relay.move?_nonce hm
    exact h.frame (by simp) (by simp) hb hc hl
  | link a =>
    obtain ⟨c, want, -, -, -, -, rfl⟩ := Relay.move?_link hm
    exact h.frame (by simp) (by simp) hb hc hl
  | die s reason =>
    rcases Relay.move?_die hm with ⟨-, rfl⟩ | ⟨-, rfl⟩ | ⟨-, rfl⟩
    · exact h.frame rfl id hb hc hl
    · exact h.frame rfl id hb hc hl
    · exact h.frame rfl id hb hc hl
  | stop =>
    rcases Relay.move?_stop hm with rfl | ⟨hs, rfl⟩
    · exact h
    · exact h.frame rfl (fun ht => absurd ht hs) hb hc hl
  | accept e =>
    obtain ⟨-, -, -, rfl⟩ := Relay.move?_accept hm
    exact h.frame rfl id hb hc hl
  | addProducer =>
    obtain ⟨-, rfl⟩ := Relay.move?_addProducer hm
    exact h.frame rfl id hb hc hl
  | dropProducer =>
    obtain ⟨-, rfl⟩ := Relay.move?_dropProducer hm
    exact h.frame rfl id hb hc hl
  | call =>
    obtain rfl := Relay.move?_call hm
    exact h.frame rfl id hb hc hl
  | pass d =>
    obtain rfl := Relay.move?_pass hm
    exact h.frame rfl id hb hc hl

end

/-! ### Stages end one after the other -/

/-- A batcher that has not failed: it ends when the producers are gone and all that was accepted is
batched. -/
structure Upstream (accepted : List Event) (batched : List Batch) (batcher : Worker Batcher)
    (events : Queue Event) (batches : Queue Batch) : Prop where
  alive : ∀ reason, batcher ≠ .died reason
  atWork : ∀ b, batcher = .running b → batches.senders = 1
  last : ∀ b batch, batcher = .running b → b.stage = .flushing batch .stop →
    events.items = [] ∧ events.senders = 0
  ended : ∀ b, batcher = .ended b → events.senders = 0 ∧ accepted = batched.flatMap Batch.events

/-- A courier that has not failed: it ends when the batcher has ended and all that is batched is
acknowledged. -/
structure Midstream (batched acknowledged : List Batch) (courier : Worker Courier)
    (batches delivered : Queue Batch) : Prop where
  alive : ∀ reason, courier ≠ .died reason
  atWork : ∀ c, courier = .running c → batches.receiving = true ∧ delivered.senders = 1
  /-- It takes no more batches, and has no fault. -/
  settled : ∀ c, courier = .running c ∨ courier = .ended c → c.verdict? = some (.ok ()) →
    batches.senders = 0 ∧ batched = acknowledged
  ended : ∀ c, courier = .ended c → c.result? = some (.ok ())

/-- A ledger that has not failed: it ends when the courier has ended and all that is acknowledged is
recorded. -/
structure Downstream (acknowledged recorded : List Batch) (courier : Worker Courier)
    (ledger : Worker Ledger) : Prop where
  alive : ∀ reason, ledger ≠ .died reason
  ended : ∀ l, ledger = .ended l → (∃ c, courier = .ended c) ∧ recorded = acknowledged

/-- A relay that is not called off, and none of whose stages has failed. -/
structure Orderly (w : Watched) : Prop where
  called : w.relay.called = false
  upstream : Upstream w.passage.accepted w.passage.batched w.relay.batcher w.relay.events w.relay.batches
  midstream : Midstream w.passage.batched w.passage.acknowledged w.relay.courier w.relay.batches
    w.relay.delivered
  downstream : Downstream w.passage.acknowledged w.passage.recorded w.relay.courier w.relay.ledger

/-- A relay whose courier has ended with a fault. -/
def Faulted (w : Watched) : Prop := ∃ c f, w.relay.courier = .ended c ∧ c.result? = some (.error f)

section

variable {accepted : List Event} {batched acknowledged recorded : List Batch} {b b' : Batcher}
  {now : Instant} {input input' : Queue Event} {output output' batches delivered : Queue Batch}
  {handed : Option Batch} {courier : Worker Courier} {c c' : Courier} {w w' : Watched}

/-- As long as there are producers, the batcher goes on, whatever they do. -/
theorem Upstream.producers {accepted' : List Event} {batcher : Worker Batcher}
    (h : Upstream accepted batched batcher input batches) (hs : 0 < input.senders) :
    Upstream accepted' batched batcher input' batches := by
  refine ⟨h.alive, h.atWork, ?_, ?_⟩
  · intro b batch hb hstage
    have := (h.last b batch hb hstage).2
    omega
  · intro b hb
    have := (h.ended b hb).1
    omega

theorem Upstream.turn (h : Upstream accepted batched (.running b) input output)
    (ht : b.Turn false now input output handed b' input' output') :
    Upstream accepted (batched ++ handed.toList) (.running b') input' output' := by
  refine ⟨by simp, ?_, ?_, by simp⟩
  · intro x _
    rw [(Batcher.ends_turn ht).2.1]
    exact h.atWork b rfl
  · intro x batch hx hstage
    obtain rfl := Worker.running.inj hx
    cases ht with
    | drained hc hs hi hend hspool => exact ⟨hi, hend⟩
    | kept hc hs => exact absurd (hs.symm.trans hstage) (by simp)
    | cancelled | filled | exhausted | due | handed | handedLast | dropped | cancelledWaiting =>
      exact absurd hstage (by simp)

/-- A batcher that ends has batched all that was accepted. -/
theorem Upstream.finish (h : Upstream accepted batched (.running b) input output)
    (hspooled : Spooled accepted batched (.running b) input.items) (hopen : output.receiving = true)
    (ht : b.Turn false now input output handed b' input' output') (hf : b'.isFinished = true) :
    input'.senders = 0 ∧ accepted = (batched ++ handed.toList).flatMap Batch.events := by
  have hwhole := hspooled.whole b rfl (Batcher.isFinished_of_turn ht)
  have htidy := hspooled.tidy b rfl
  have hall : accepted = (batched ++ handed.toList).flatMap Batch.events ++ b'.waiting ++ input'.items := by
    rcases Batcher.waiting_turn ht with hkept | ⟨hlost | hlost, -, -⟩
    · rw [hwhole, List.append_assoc, ← hkept]
      simp only [List.flatMap_append, List.append_assoc]
    · exact absurd hlost (by simp)
    · exact absurd (hopen.symm.trans hlost) (by simp)
  suffices hrest : input'.senders = 0 ∧ b'.waiting = [] ∧ input'.items = [] by
    rw [hrest.2.1, hrest.2.2, List.append_nil, List.append_nil] at hall
    exact ⟨hrest.1, hall⟩
  cases ht with
  | exhausted hc hs hi hend hspool => exact ⟨hend, by simp [Batcher.waiting, Batcher.pending, hspool], hi⟩
  | handedLast hc hs hr hroom =>
    obtain ⟨hi, hend⟩ := h.last b _ rfl hs
    simp only [Batcher.Tidy, hs] at htidy
    exact ⟨hend, by simp [Batcher.waiting, Batcher.pending, htidy.1], hi⟩
  | cancelled hc => exact absurd hc (by simp)
  | cancelledWaiting hc => exact absurd hc (by simp)
  | dropped hc hs hr => exact absurd (hopen.symm.trans hr) (by simp)
  | kept hc hs => exact absurd hf (by simp [Batcher.isFinished, hs])
  | filled | drained | due | handed => exact absurd hf (by simp [Batcher.isFinished])

/-- Nobody has called off a queue whose batcher is still at work. -/
theorem Orderly.receiving (h : w.Orderly) (hb : w.relay.batcher = .running b) :
    w.relay.batches.receiving = true := by
  have hsenders := h.upstream.atWork b hb
  cases hc : w.relay.courier with
  | running c => exact (h.midstream.atWork c hc).1
  | ended c =>
    have hsettled := h.midstream.settled c (.inr hc) (Courier.verdict?_of_result? (h.midstream.ended c hc))
    exact absurd (hsenders.symm.trans hsettled.1) (by simp)
  | died reason => exact absurd hc (h.midstream.alive reason)

/-- A courier that still takes batches may get more of them. -/
theorem Midstream.append (h : Midstream batched acknowledged courier output delivered) (bs : List Batch)
    (hs : output.senders ≠ 0) (hr : output'.receiving = output.receiving) :
    Midstream (batched ++ bs) acknowledged courier output' delivered := by
  refine ⟨h.alive, ?_, fun c hc hv => absurd (h.settled c hc hv).1 hs, h.ended⟩
  intro c hc
  rw [hr]
  exact h.atWork c hc

theorem Orderly.batcherTurn (h : w.Orderly) (hflow : w.Flow)
    (hm : w.move? (.stage .batcher) = some w') : w'.Orderly := by
  obtain ⟨notices, hr, hp⟩ := exists_of_move? hm
  obtain ⟨b, b', input, output, hb, ht, hr'⟩ := Relay.move?_batcher hr
  obtain ⟨r', p'⟩ := w'
  subst hr'
  have hpassing : w.relay.passing (.stage .batcher)
      = { batched := (b.handsOn? false w.relay.batches).toList } := by
    simp only [Relay.passing, hb, h.called]
  rw [hpassing] at hp
  subst hp
  have hopen := h.receiving hb
  have hsenders := h.upstream.atWork b hb
  obtain ⟨hcalled, hup, hmid, hdown⟩ := h
  have hspooled := hflow.spooled
  rw [hcalled] at ht
  rw [hb] at hspooled hup
  generalize b.handsOn? false w.relay.batches = handed at ht ⊢
  have hends := Batcher.ends_turn ht
  have hmid' := hmid.append handed.toList (by omega) hends.2.2
  cases hf : b'.isFinished with
  | false =>
    rw [Relay.setBatcher_of_not_finished hf]
    refine ⟨hcalled, ?_, ?_, ?_⟩
    · simpa using hup.turn ht
    · simpa using hmid'
    · simpa using hdown
  | true =>
    obtain ⟨hlast, hall⟩ := hup.finish hspooled hopen ht hf
    rw [Relay.setBatcher_of_finished hf]
    simp only [Relay.releaseBatcher]
    constructor
    case called => exact hcalled
    case upstream =>
      refine ⟨by simp, by simp, by simp, fun x _ => ⟨hlast, ?_⟩⟩
      simpa using hall
    case midstream =>
      refine ⟨hmid.alive, hmid'.atWork, ?_, hmid.ended⟩
      intro c hc hv
      exact absurd (hmid.settled c hc hv).1 (by omega)
    case downstream => simpa using hdown

/-- As long as the courier goes on, so does the ledger. -/
theorem Downstream.goOn {acknowledged' recorded' : List Batch} {ledger : Worker Ledger}
    (h : Downstream acknowledged recorded (.running c) ledger) :
    Downstream acknowledged' recorded' (.running c') ledger := by
  refine ⟨h.alive, ?_⟩
  intro l hl
  obtain ⟨⟨x, hx⟩, -⟩ := h.ended l hl
  exact absurd hx (by simp)

/-- Of the queue behind the courier only the courier's end of it matters. -/
theorem Midstream.frame {delivered' : Queue Batch}
    (h : Midstream batched acknowledged courier output delivered)
    (hs : delivered'.senders = delivered.senders) :
    Midstream batched acknowledged courier output delivered' := by
  refine ⟨h.alive, ?_, h.settled, h.ended⟩
  intro c hc
  rw [hs]
  exact h.atWork c hc

/-- A courier goes on, and takes no more batches only if there will be none. -/
theorem Midstream.goOn {acknowledged' : List Batch}
    (h : Midstream batched acknowledged (.running c) output delivered)
    (hr : output'.receiving = output.receiving) {delivered' : Queue Batch}
    (hs : delivered'.senders = delivered.senders)
    (hv : c'.verdict? = some (.ok ()) → output'.senders = 0 ∧ batched = acknowledged') :
    Midstream batched acknowledged' (.running c') output' delivered' := by
  refine ⟨by simp, ?_, ?_, by simp⟩
  · intro x _
    rw [hr, hs]
    exact h.atWork c rfl
  · intro x hx
    rcases hx with hx | hx
    · obtain rfl := Worker.running.inj hx
      exact hv
    · exact absurd hx (by simp)

theorem Midstream.linkTurn {d : Delivery} {k : Option Batch}
    (h : Midstream batched acknowledged (.running c) output delivered) (ht : c.LinkTurn false d k c') :
    Midstream batched (acknowledged ++ k.toList) (.running c') output delivered := by
  refine h.goOn rfl rfl ?_
  intro hv
  cases ht with
  | ongoing hd hb => exact absurd hv (by simp [Courier.verdict?])
  | acknowledged l => exact absurd hv (by simp [Courier.verdict?])
  | givenUp hv' hr => exact absurd (hr (Option.some.inj (hv'.symm.trans hv))) (by simp)

theorem Midstream.queueTurn (h : Midstream batched acknowledged (.running c) batches delivered)
    (hcarried : Carried batched acknowledged false (.running c) batches.items)
    (ht : c.QueueTurn false batches delivered c' output output') :
    Midstream batched acknowledged (.running c') output output' := by
  have hends := Courier.ends_queueTurn ht
  refine h.goOn hends.2.1 hends.2.2 ?_
  intro hv
  cases ht with
  | exhausted hc hs hi hend _ =>
    have hwhole := hcarried.whole c rfl (by rw [Courier.verdict?, hs])
    refine ⟨hend, ?_⟩
    simpa [Courier.pending, hs, hi] using hwhole
  | cancelled hc => exact absurd hc (by simp)
  | took | tookEmpty | wanted | unwanted | handed | dropped | cancelledWaiting =>
    exact absurd hv (by simp [Courier.verdict?])

/-- A courier that comes to its end leaves an orderly relay behind, or one that has failed. -/
theorem Orderly.setCourier {r : Relay} {p : Passage}
    (h : Orderly ⟨{ r with courier := .running c }, p⟩) :
    Orderly ⟨r.setCourier c, p⟩ ∨ Faulted ⟨r.setCourier c, p⟩ := by
  rcases r.setCourier_cases c with ⟨-, heq⟩ | ⟨hok, heq⟩ | ⟨f, hf, heq⟩
  · rw [heq]
    exact .inl h
  · rw [heq]
    have hended (x : Courier) (hx : Worker.ended c = .ended x) : x.result? = some (.ok ()) := by
      rw [← Worker.ended.inj hx]
      exact hok
    have hsettled (x : Courier) (hx : Worker.ended c = .running x ∨ Worker.ended c = .ended x) :
        x.verdict? = some (.ok ()) → r.batches.senders = 0 ∧ p.batched = p.acknowledged := by
      rcases hx with hx | hx
      · exact absurd hx (by simp)
      · rw [← Worker.ended.inj hx]
        exact h.midstream.settled c (.inl rfl)
    have hdown (l : Ledger) (hl : r.ledger = .ended l) : False := by
      obtain ⟨⟨x, hx⟩, -⟩ := h.downstream.ended l hl
      exact absurd hx (by simp)
    left
    constructor
    case called => exact h.called
    case upstream => exact ⟨h.upstream.alive, h.upstream.atWork, h.upstream.last, h.upstream.ended⟩
    case midstream =>
      exact ⟨by simp [Relay.releaseCourier], by simp [Relay.releaseCourier], hsettled, hended⟩
    case downstream => exact ⟨h.downstream.alive, fun l hl => (hdown l hl).elim⟩
  · rw [heq]
    exact .inr ⟨c, f, rfl, hf⟩

theorem Orderly.courierTurn (h : w.Orderly) (hflow : w.Flow)
    (hm : w.move? (.stage .courier) = some w') : w'.Orderly ∨ w'.Faulted := by
  obtain ⟨notices, r', hr, rfl⟩ := passage_of_passing hm rfl
  obtain ⟨c, c', input, output, hc, ht, rfl⟩ := Relay.move?_courier hr
  obtain ⟨hcalled, hup, hmid, hdown⟩ := h
  have hcarried := hflow.carried
  rw [hc] at hcarried hmid hdown
  rw [hcalled] at hcarried ht
  have hsenders := (Courier.ends_queueTurn ht).1
  have hup' : Upstream w.passage.accepted w.passage.batched w.relay.batcher w.relay.events input :=
    ⟨hup.alive, fun b hb => hsenders.trans (hup.atWork b hb), hup.last, hup.ended⟩
  exact Orderly.setCourier ⟨hcalled, hup', hmid.queueTurn hcarried ht, hdown.goOn⟩

theorem Orderly.nonce {bs : Bytes} (h : w.Orderly) (hm : w.move? (.nonce bs) = some w') :
    w'.Orderly ∨ w'.Faulted := by
  obtain ⟨notices, r', hr, rfl⟩ := passage_of_passing hm rfl
  obtain ⟨c, l, b, hc, hs, -, rfl⟩ := Relay.move?_nonce hr
  obtain ⟨hcalled, hup, hmid, hdown⟩ := h
  rw [hc] at hmid hdown
  rw [Courier.next_answer_nonce hs]
  refine Orderly.setCourier ⟨hcalled, hup, hmid.goOn rfl rfl ?_, hdown.goOn⟩
  intro hv
  exact absurd hv (by simp [Courier.verdict?])

theorem Orderly.link {a : LinkAnswer} (h : w.Orderly) (hflow : w.Flow)
    (hm : w.move? (.link a) = some w') : w'.Orderly ∨ w'.Faulted := by
  obtain ⟨notices, hr, hp⟩ := exists_of_move? hm
  obtain ⟨c, want, hc, hw, hfit, hcall, hr'⟩ := Relay.move?_link hr
  obtain ⟨r', p'⟩ := w'
  subst hr'
  have hpassing : w.relay.passing (.link a) = { acknowledged := (c.acknowledged? a).toList } := by
    simp only [Relay.passing, hc]
  rw [hpassing] at hp
  subst hp
  obtain ⟨hcalled, hup, hmid, hdown⟩ := h
  have hcarried := hflow.carried
  rw [hc] at hcarried hmid hdown
  rw [hcalled] at hcarried hcall
  rcases Courier.stage_of_want_link hw with ⟨d, hs, rfl⟩ | ⟨o, v, hs, rfl⟩
  · have ht := Courier.linkTurn_delivering hs (hcarried.sound c rfl d hs) hfit hcall
    refine Orderly.setCourier ⟨hcalled, ?_, ?_, ?_⟩
    · simpa using hup
    · simpa using hmid.linkTurn ht
    · simpa using hdown.goOn
  · -- the link is being closed: the courier has come to something before
    have hv := Courier.verdict?_answer_closing (a := a) hs
    have hv₀ : c.verdict? = some v := by rw [Courier.verdict?, hs]
    have hnone : c.acknowledged? a = none := by simp only [Courier.acknowledged?, hs]
    refine Orderly.setCourier ⟨hcalled, ?_, ?_, ?_⟩
    · simpa using hup
    · have hmid' : Midstream w.passage.batched w.passage.acknowledged (.running (c.answer (.link a)).next)
          w.relay.batches w.relay.delivered :=
        hmid.goOn rfl rfl fun hok => hmid.settled c (.inl rfl) (hv₀.trans (hv.symm.trans hok))
      simpa [hnone] using hmid'
    · simpa using hdown.goOn

theorem Orderly.ledgerTurn (h : w.Orderly) (hflow : w.Flow) (hm : w.move? (.stage .ledger) = some w') :
    w'.Orderly := by
  obtain ⟨notices, hr, hp⟩ := exists_of_move? hm
  obtain ⟨r', p'⟩ := w'
  obtain ⟨hcalled, hup, hmid, hdown⟩ := h
  obtain ⟨l, hl, -, ⟨b, rest, -, hi, hb, hr'⟩ | ⟨hend, hb, hr'⟩⟩ := Relay.move?_ledger hr
  · subst hr'
    have hpassing : w.relay.passing (.stage .ledger) = { recorded := [b] } := by
      simp only [Relay.passing, hb, Option.toList_some]
    rw [hpassing] at hp
    subst hp
    refine ⟨hcalled, ?_, ?_, ⟨by simp, by simp⟩⟩
    · simpa using hup
    · have hmid' : Midstream w.passage.batched w.passage.acknowledged w.relay.courier w.relay.batches
          { w.relay.delivered with items := rest } := hmid.frame rfl
      simpa using hmid'
  · subst hr'
    have hpassing : w.relay.passing (.stage .ledger) = {} := by
      simp only [Relay.passing, hb, Option.toList_none]
    rw [hpassing, Passage.append_empty] at hp
    subst hp
    refine ⟨hcalled, hup, hmid.frame rfl, by simp [Relay.releaseLedger], ?_⟩
    intro l' _
    rcases hend with hcancel | ⟨hi, hsenders⟩
    · exact absurd (hcalled.symm.trans hcancel) (by simp)
    · obtain ⟨rest, hall, hunrecorded⟩ := hflow.recorded.whole hcalled l hl
      cases hc : w.relay.courier with
      | running c => exact absurd ((hmid.atWork c hc).2.symm.trans hsenders) (by simp)
      | died reason => exact absurd hc (hmid.alive reason)
      | ended c =>
        have hv := Courier.verdict?_of_result? (hmid.ended c hc)
        have hrest : rest = [] := (hunrecorded c (.inr hc)).trans (Courier.of_verdict? hv).2.1
        refine ⟨⟨c, rfl⟩, ?_⟩
        rw [hrest, hi, List.append_nil, List.append_nil] at hall
        exact hall.symm

/-- **Every step that does not break off keeps a relay orderly, or shows a fault.** -/
theorem Orderly.move? {m : Move} (h : w.Orderly) (hflow : w.Flow) (hbreak : m.breaksOff = false)
    (hm : w.move? m = some w') : w'.Orderly ∨ w'.Faulted := by
  cases m with
  | stage s =>
    cases s with
    | batcher => exact .inl (h.batcherTurn hflow hm)
    | courier => exact h.courierTurn hflow hm
    | ledger => exact .inl (h.ledgerTurn hflow hm)
  | nonce bs => exact h.nonce hm
  | link a => exact h.link hflow hm
  | stop | die => exact absurd hbreak (by simp [Move.breaksOff])
  | accept e =>
    obtain ⟨notices, hr, hp⟩ := exists_of_move? hm
    obtain ⟨hs, -, -, hr'⟩ := Relay.move?_accept hr
    obtain ⟨r', p'⟩ := w'
    subst hr'
    subst hp
    refine .inl ⟨h.called, ?_, ?_, ?_⟩
    · simpa [Relay.passing] using h.upstream.producers hs
    · simpa [Relay.passing] using h.midstream
    · simpa [Relay.passing] using h.downstream
  | addProducer =>
    obtain ⟨notices, r', hr, rfl⟩ := passage_of_passing hm rfl
    obtain ⟨hs, rfl⟩ := Relay.move?_addProducer hr
    exact .inl ⟨h.called, h.upstream.producers hs, h.midstream, h.downstream⟩
  | dropProducer =>
    obtain ⟨notices, r', hr, rfl⟩ := passage_of_passing hm rfl
    obtain ⟨hs, rfl⟩ := Relay.move?_dropProducer hr
    exact .inl ⟨h.called, h.upstream.producers hs, h.midstream, h.downstream⟩
  | announce =>
    obtain ⟨notices, r', hr, rfl⟩ := passage_of_passing hm rfl
    obtain ⟨-, rfl⟩ := Relay.move?_announce hr
    exact .inl ⟨h.called, h.upstream, h.midstream, h.downstream⟩
  | call =>
    obtain ⟨notices, r', hr, rfl⟩ := passage_of_passing hm rfl
    obtain rfl := Relay.move?_call hr
    exact .inl ⟨h.called, h.upstream, h.midstream, h.downstream⟩
  | pass d =>
    obtain ⟨notices, r', hr, rfl⟩ := passage_of_passing hm rfl
    obtain rfl := Relay.move?_pass hr
    exact .inl ⟨h.called, h.upstream, h.midstream, h.downstream⟩
  | supervise =>
    obtain ⟨notices, r', hr, rfl⟩ := passage_of_passing hm rfl
    obtain ⟨p, ⟨-, rfl⟩ | ⟨-, -, rfl⟩ | ⟨-, -, rfl⟩⟩ := Relay.move?_supervise hr
    · exact .inl ⟨h.called, h.upstream, h.midstream, h.downstream⟩
    · exact .inl ⟨h.called, h.upstream, h.midstream, h.downstream⟩
    · exact .inl ⟨h.called, h.upstream, h.midstream, h.downstream⟩

/-- A courier that has ended with a fault has done so for good. -/
theorem Faulted.move? {m : Move} (h : w.Faulted) (hm : w.move? m = some w') : w'.Faulted := by
  obtain ⟨c, f, hc, hf⟩ := h
  obtain ⟨notices, hr, -⟩ := exists_of_move? hm
  have hended := (Relay.ended_move? hr).2.1 (by rw [hc]; rfl)
  exact ⟨c, f, hended.trans hc, hf⟩

end

/-! ### Runs that come to an end by themselves -/

section

variable {capacities : Capacities} {settings : BatcherSettings} {keys : Keys} {l : Link}
  {now : Instant} {ms : List Move} {w w' : Watched}

/-- All that is kept by the steps of a run that is not broken off. -/
structure Drains (size : Nat) (w : Watched) : Prop where
  flow : w.Flow
  numbered : Numbered size w.passage.batched w.relay.batcher
  supervised : Supervised w.relay
  /-- There is no fault, or the courier has ended with it. -/
  orderly : w.Orderly ∨ w.Faulted

/-- At the start every stage is at work, and nothing has passed. -/
theorem orderly_start (capacities : Capacities) (settings : BatcherSettings) (keys : Keys) (l : Link)
    (now : Instant) : (start capacities settings keys l now).Orderly where
  called := rfl
  upstream := by
    refine ⟨by simp [start, Relay.start], fun _ _ => rfl, ?_, by simp [start, Relay.start]⟩
    intro b batch hb hs
    obtain rfl := Worker.running.inj hb
    exact absurd hs (by simp [Batcher.start])
  midstream := by
    refine ⟨by simp [start, Relay.start], fun _ _ => ⟨rfl, rfl⟩, ?_, by simp [start, Relay.start]⟩
    intro c hc hv
    rcases hc with hc | hc
    · obtain rfl := Worker.running.inj hc
      exact absurd hv (by simp [Courier.start, Courier.verdict?])
    · exact absurd hc (by simp [start, Relay.start])
  downstream := ⟨by simp [start, Relay.start], by simp [start, Relay.start]⟩

theorem drains_start (capacities : Capacities) (settings : BatcherSettings) (keys : Keys) (l : Link)
    (now : Instant) : Drains (max settings.size 1) (start capacities settings keys l now) where
  flow := flow_start capacities settings keys l now
  numbered := by
    refine ⟨?_, rfl, by simp [start]⟩
    intro b hb
    obtain rfl := Worker.running.inj hb
    exact ⟨rfl, fun _ => rfl⟩
  supervised := ⟨by simp [start, Relay.start], by simp [start, Relay.start], by simp [start, Relay.start]⟩
  orderly := .inl (orderly_start capacities settings keys l now)

theorem drains_move? {size : Nat} {m : Move} (hbreak : m.breaksOff = false) (h : Drains size w)
    (hm : w.move? m = some w') : Drains size w' := by
  obtain ⟨notices, hr, -⟩ := exists_of_move? hm
  refine ⟨flow_move? h.flow hm, numbered_move? h.numbered h.flow hm,
    supervised_move? h.supervised hr, ?_⟩
  rcases h.orderly with horderly | hfaulted
  · exact horderly.move? h.flow hbreak hm
  · exact .inr (hfaulted.move? hm)

/-- An orderly relay whose stages have ended has recorded all that was accepted. -/
theorem Orderly.complete (h : w.Orderly) (hb : w.relay.batcher.isRunning = false)
    (hl : w.relay.ledger.isRunning = false) :
    w.passage.accepted = w.passage.batched.flatMap Batch.events ∧
      w.passage.batched = w.passage.acknowledged ∧ w.passage.recorded = w.passage.acknowledged := by
  have hledger : ∃ l, w.relay.ledger = .ended l := by
    cases hw : w.relay.ledger with
    | running l => exact absurd hl (by simp [hw, Worker.isRunning])
    | ended l => exact ⟨l, rfl⟩
    | died reason => exact absurd hw (h.downstream.alive reason)
  have hbatcher : ∃ b, w.relay.batcher = .ended b := by
    cases hw : w.relay.batcher with
    | running b => exact absurd hb (by simp [hw, Worker.isRunning])
    | ended b => exact ⟨b, rfl⟩
    | died reason => exact absurd hw (h.upstream.alive reason)
  obtain ⟨l, hl⟩ := hledger
  obtain ⟨b, hb⟩ := hbatcher
  obtain ⟨⟨c, hc⟩, hrecorded⟩ := h.downstream.ended l hl
  have hv := Courier.verdict?_of_result? (h.midstream.ended c hc)
  exact ⟨(h.upstream.ended b hb).2, (h.midstream.settled c (.inr hc) hv).2, hrecorded⟩

/-- A relay that comes to a good end has no fault. -/
theorem orderly_of_result? {size : Nat} (h : Drains size w) (hr : w.relay.result? = some (.ok ())) :
    w.Orderly ∧ w.relay.supervisor = .ended (.ok ()) := by
  have hs : w.relay.supervisor = .ended (.ok ()) := by
    rw [Relay.result?] at hr
    cases hs : w.relay.supervisor with
    | ended p => rw [hs] at hr; rw [Option.some.inj hr]
    | idle | awaitingCourier | awaitingBatcher | awaitingLedger => rw [hs] at hr; exact absurd hr (by simp)
  refine ⟨?_, hs⟩
  rcases h.orderly with horderly | ⟨c, f, hc, hf⟩
  · exact horderly
  · have hpub := h.supervised.published _ (.inr (.inr hs))
    simp only [Relay.published?, hc, hf] at hpub
    exact absurd hpub (by simp)

/-- **A relay that is not broken off and comes to a good end has lost nothing.**  All that was
accepted is acknowledged and recorded, in the order in which it was accepted; the delivered batches
have the numbers from zero on, and none is empty or larger than it may be; the positions are those
of all that was accepted; and the relay has stopped. -/
theorem drains (h : (start capacities settings keys l now).run? ms = some w)
    (hbreak : ∀ m ∈ ms, m.breaksOff = false) (hresult : w.relay.result? = some (.ok ())) :
    w.passage.acknowledged.flatMap Batch.events = w.passage.accepted ∧
      w.passage.recorded = w.passage.acknowledged ∧
      w.passage.acknowledged.map Batch.sequence = List.range w.passage.acknowledged.length ∧
      (∀ b ∈ w.passage.acknowledged, 0 < b.size ∧ b.size ≤ max settings.size 1) ∧
      w.relay.positions = w.passage.accepted.foldl Positions.record ∅ ∧
      w.relay.status = .stopped := by
  have hdrains : Drains (max settings.size 1) w :=
    runSteps_induction_of_mem (fun m hm _ _ hw => drains_move? (hbreak m hm) hw) h
      (drains_start capacities settings keys l now)
  -- a fault would show in the result, so that every stage has ended as it should
  obtain ⟨horderly, hs⟩ := orderly_of_result? hdrains hresult
  obtain ⟨hledger, hstatus⟩ := hdrains.supervised.ledger _ hs
  have hbatcher := hdrains.supervised.batcher _ (.inr hs)
  obtain ⟨haccepted, hbatched, hrecorded⟩ := horderly.complete hbatcher hledger
  -- now all four sequences are the same
  have hpositions := hdrains.flow.positions_eq
  rw [hrecorded, ← hbatched, ← haccepted] at hpositions
  rw [← hbatched]
  exact ⟨haccepted.symm, hrecorded.trans hbatched.symm, hdrains.numbered.sequences,
    hdrains.numbered.sizes, hpositions, hstatus⟩

end

/-! ### A run that comes to a good end -/

/-- A relay that has just been started and makes a batch of every two events. -/
def lineByTwo : Watched := start {} { size := 2 } ⟨.zero, .zero⟩ oneCollector 0

/-- Three lines are accepted, and the producer leaves; one batch is full and the other holds the
rest. -/
def runOut : List Move :=
  [.announce, .accept (lineRead 1), .stage .batcher] ++ spoolLine 2 ++ takeBatch ++ connect ++ exchange ++
    recordBatch ++ [.accept (lineRead 3), .dropProducer, .stage .batcher, .stage .batcher,
      .stage .batcher] ++
    takeBatch ++ exchange ++ recordBatch ++ [.stage .courier, .link .closed, .stage .ledger] ++
    [.supervise, .supervise, .supervise]

theorem drains_runOut :
    ∃ w, lineByTwo.run? runOut = some w ∧ w.relay.result? = some (.ok ()) ∧
      w.passage.acknowledged = [⟨0, [lineRead 1, lineRead 2]⟩, ⟨1, [lineRead 3]⟩] ∧
      w.passage.accepted = [lineRead 1, lineRead 2, lineRead 3] ∧
      w.passage.recorded = w.passage.acknowledged ∧
      w.relay.positions = [lineRead 1, lineRead 2, lineRead 3].foldl Positions.record ∅ ∧
      w.relay.status = .stopped := by
  obtain ⟨w, hw⟩ : ∃ w, lineByTwo.run? runOut = some w := Option.isSome_iff_exists.1 rfl
  have hpassage : (lineByTwo.run? runOut).map Watched.passage
      = some ⟨[lineRead 1, lineRead 2, lineRead 3], [⟨0, [lineRead 1, lineRead 2]⟩, ⟨1, [lineRead 3]⟩],
          [⟨0, [lineRead 1, lineRead 2]⟩, ⟨1, [lineRead 3]⟩],
          [⟨0, [lineRead 1, lineRead 2]⟩, ⟨1, [lineRead 3]⟩]⟩ := rfl
  have hresult : (lineByTwo.run? runOut).bind (fun w => w.relay.result?) = some (.ok ()) := rfl
  have hbreak : ∀ m ∈ runOut, m.breaksOff = false := by decide
  rw [hw] at hpassage hresult
  have hp : w.passage = _ := Option.some.inj hpassage
  obtain ⟨-, hrecorded, -, -, hpositions, hstatus⟩ := drains hw hbreak hresult
  rw [hp] at hpositions
  refine ⟨w, hw, hresult, ?_, ?_, hrecorded, hpositions, hstatus⟩
  · rw [hp]
  · rw [hp]

end Watched

end LogRelay
