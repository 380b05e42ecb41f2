import LogRelay.Proofs.Relay.Standstill

/-!
# What a relay can hold back

While no batch gets through, a relay fills up from its end: the courier delivers one batch, one more waits for
it, a batcher that waits for room takes no events, and so their queue fills as well.  Then the producers have
to wait.

* `Watched.backlog`: the events that are accepted and not acknowledged, and that no stage took with it when it
  ended;
* `Watched.Unanswered`, `unanswered_move?`: what a courier holds, also while it closes its link;
* `Watched.Laden`, `laden_move?`: all that bounds what a relay holds;
* `Watched.backlog_bounded`: where the events of the backlog are, and how many there can be.
-/

namespace LogRelay

/-- Batches have no more events than their number and their sizes allow. -/
theorem length_flatMap_events_le {bs : List Batch} {n : Nat} (hn : ∀ b ∈ bs, b.size ≤ n) :
    (bs.flatMap Batch.events).length ≤ bs.length * n := by
  induction bs with
  | nil => exact Nat.zero_le _
  | cons b bs ih =>
    have hfirst : b.events.length ≤ n := hn b List.mem_cons_self
    have hrest := ih fun b hb => hn b (List.mem_cons_of_mem _ hb)
    rw [List.flatMap_cons, List.length_append, List.length_cons, Nat.succ_mul]
    omega

/-- A batcher at work holds no more than a batch. -/
theorem Batcher.length_waiting_le {b : Batcher} (h : b.Tidy) (hf : b.isFinished = false) :
    b.waiting.length ≤ b.size := by
  rw [Tidy] at h
  rw [waiting, pending]
  cases hs : b.stage with
  | collecting =>
    simp only [hs] at h
    simp only [List.flatMap_nil, List.nil_append]
    omega
  | flushing batch after =>
    simp only [hs] at h
    obtain ⟨hspool, -, hsize, -⟩ := h
    simp only [List.flatMap_cons, List.flatMap_nil, List.append_nil, hspool]
    exact hsize
  | finished => rw [isFinished, hs] at hf; exact absurd hf (by simp)

theorem Courier.length_pending_le (c : Courier) : c.pending.length ≤ 1 := by
  rw [pending]
  split <;> simp

/-- A courier that is still at work after it has moved. -/
theorem Relay.running_of_setCourier {r : Relay} {c c' : Courier}
    (h : (r.setCourier c).courier = .running c') :
    c' = c ∧ r.setCourier c = { r with courier := .running c } := by
  rcases r.setCourier_cases c with ⟨-, heq⟩ | ⟨-, heq⟩ | ⟨f, -, heq⟩
  · rw [heq] at h
    exact ⟨(Worker.running.inj h).symm, heq⟩
  · rw [heq] at h
    exact absurd h (by simp [releaseCourier])
  · rw [heq] at h
    exact absurd h (by simp [releaseCourier])

theorem Relay.items_setBatcher (r : Relay) (b : Batcher) :
    (r.setBatcher b).batches.items = r.batches.items := by
  rw [setBatcher]
  split <;> rfl

namespace Watched

variable {w w' : Watched} {m : Move}

/-- The events that are accepted and not acknowledged, without those that a stage took with it when it
ended. -/
def backlog (w : Watched) : List Event :=
  (if w.relay.courier.isRunning then
    (w.passage.batched.drop w.passage.acknowledged.length).flatMap Batch.events else []) ++
  if w.relay.batcher.isRunning then
    w.passage.accepted.drop (w.passage.batched.flatMap Batch.events).length else []

/-- What a courier has taken and got no reply to: the batch that it delivers, or, while it closes its link,
the one that it gave up. -/
def Unanswered (w : Watched) : Prop :=
  ∀ c, w.relay.courier = .running c → ∃ hand : List Batch, hand.length ≤ 1 ∧
    w.passage.batched = w.passage.acknowledged ++ hand ++ w.relay.batches.items ∧
    (c.verdict? = none → hand = c.pending)

/-- While a courier closes its link, it neither takes a batch nor gets a reply. -/
theorem closing_move? (h : w.Flow) (hm : w.move? m = some w') {c' : Courier}
    (hc : w'.relay.courier = .running c') (hv : c'.verdict? ≠ none) :
    (∃ c, w.relay.courier = .running c) ∧ ∃ more, w'.passage.batched = w.passage.batched ++ more ∧
      w'.relay.batches.items = w.relay.batches.items ++ more ∧
      w'.passage.acknowledged = w.passage.acknowledged := by
  obtain ⟨notices, hr, hp⟩ := exists_of_move? hm
  rw [hp]
  -- a step that leaves the courier, its queue and what has passed as they are
  have hframe (hc' : w'.relay.courier = w.relay.courier) (hb : w'.relay.batches.items = w.relay.batches.items)
      (hpassing : (w.relay.passing m).batched = [] ∧ (w.relay.passing m).acknowledged = []) :
      (∃ c, w.relay.courier = .running c) ∧ ∃ more,
        (w.passage ++ w.relay.passing m).batched = w.passage.batched ++ more ∧
        w'.relay.batches.items = w.relay.batches.items ++ more ∧
        (w.passage ++ w.relay.passing m).acknowledged = w.passage.acknowledged := by
    refine ⟨⟨c', hc'.symm.trans hc⟩, [], ?_, ?_, ?_⟩
    · rw [Passage.batched_append, hpassing.1]
    · rw [hb, List.append_nil]
    · rw [Passage.acknowledged_append, hpassing.2, List.append_nil]
  cases m with
  | stage s =>
    cases s with
    | batcher =>
      obtain ⟨b, b', input, output, hb, ht, hr'⟩ := Relay.move?_batcher hr
      refine ⟨⟨c', by simpa [hr'] using hc⟩, (b.handsOn? w.relay.called w.relay.batches).toList, ?_, ?_, ?_⟩
      · simp only [Passage.batched_append, Relay.passing, hb]
      · rw [hr', Relay.items_setBatcher]
        exact Batcher.items_turn ht
      · simp [Relay.passing, hb]
    | courier =>
      obtain ⟨c, c₁, input, output, hrun, ht, hr'⟩ := Relay.move?_courier hr
      rw [hr'] at hc
      obtain ⟨rfl, heq⟩ := Relay.running_of_setCourier hc
      refine ⟨⟨c, hrun⟩, [], by simp [Relay.passing], ?_, by simp [Relay.passing]⟩
      rw [hr', heq, List.append_nil]
      show input.items = w.relay.batches.items
      cases ht with
      | exhausted | cancelled => rfl
      | took | tookEmpty | wanted | unwanted | handed | dropped | cancelledWaiting =>
        exact absurd rfl hv
    | ledger =>
      obtain ⟨l, -, -, ⟨b, rest, -, -, -, hr'⟩ | ⟨-, -, hr'⟩⟩ := Relay.move?_ledger hr
      · exact hframe (by rw [hr']) (by rw [hr']) ⟨rfl, rfl⟩
      · exact hframe (by rw [hr']; rfl) (by rw [hr']; rfl) ⟨rfl, rfl⟩
  | nonce bs =>
    obtain ⟨c, l, b, -, hs, -, hr'⟩ := Relay.move?_nonce hr
    rw [hr'] at hc
    obtain ⟨rfl, -⟩ := Relay.running_of_setCourier hc
    rw [Courier.next_answer_nonce hs] at hv
    exact absurd rfl hv
  | link a =>
    obtain ⟨c, want, hrun, hw, hfit, hcall, hr'⟩ := Relay.move?_link hr
    rw [hr'] at hc
    obtain ⟨rfl, heq⟩ := Relay.running_of_setCourier hc
    have hnone : c.acknowledged? a = none := by
      rcases Courier.stage_of_want_link hw with ⟨d, hs, rfl⟩ | ⟨o, v, hs, -⟩
      · have ht := Courier.linkTurn_delivering hs (h.carried.sound c hrun d hs) hfit hcall
        generalize c.acknowledged? a = k at ht ⊢
        generalize (c.answer (.link a)).next = c₁ at ht hv
        cases ht with
        | givenUp => rfl
        | ongoing | acknowledged => exact absurd rfl hv
      · simp only [Courier.acknowledged?, hs]
    refine ⟨⟨c, hrun⟩, [], by simp [Relay.passing, hrun], ?_, by simp [Relay.passing, hrun, hnone]⟩
    rw [hr', heq, List.append_nil]
  | die s reason =>
    rcases Relay.move?_die hr with ⟨-, hr'⟩ | ⟨-, hr'⟩ | ⟨-, hr'⟩
    · exact hframe (by rw [hr']; rfl) (by rw [hr']; rfl) ⟨rfl, rfl⟩
    · rw [hr'] at hc
      exact absurd hc (by simp [Relay.releaseCourier])
    · exact hframe (by rw [hr']; rfl) (by rw [hr']; rfl) ⟨rfl, rfl⟩
  | announce | addProducer | dropProducer | accept | call | stop | supervise | pass =>
    have hkept := Relay.stagesKept_move? rfl hr
    exact hframe hkept.courier (by rw [hkept.batches]) ⟨rfl, rfl⟩

/-- Every step keeps what a courier holds. -/
theorem unanswered_move? (h : w.Unanswered) (hflow : w.Flow) (hm : w.move? m = some w') : w'.Unanswered := by
  intro c' hc'
  cases hv : c'.verdict? with
  | none =>
    have hwhole := (flow_move? hflow hm).carried.whole c' hc' hv
    exact ⟨c'.pending, c'.length_pending_le, hwhole, fun _ => rfl⟩
  | some v =>
    obtain ⟨⟨c, hc⟩, more, hbatched, hitems, hacknowledged⟩ :=
      closing_move? hflow hm hc' (by rw [hv]; simp)
    obtain ⟨hand, hlength, hwhole, -⟩ := h c hc
    refine ⟨hand, hlength, ?_, by simp⟩
    rw [hbatched, hitems, hacknowledged, hwhole, List.append_assoc]

/-- All that bounds what a relay holds. -/
structure Laden (size : Nat) (w : Watched) : Prop where
  flow : w.Flow
  wired : w.relay.Wired {}
  numbered : Numbered size w.passage.batched w.relay.batcher
  unanswered : w.Unanswered

theorem laden_start (settings : BatcherSettings) (keys : Keys) (l : Link) (now : Instant) :
    Laden (max settings.size 1) (start {} settings keys l now) where
  flow := flow_start {} settings keys l now
  wired := Relay.wired_start {} settings keys l now
  numbered := (drains_start {} settings keys l now).numbered
  unanswered := by
    intro c hc
    obtain rfl := Worker.running.inj hc
    exact ⟨[], Nat.zero_le _, rfl, fun _ => rfl⟩

theorem laden_move? {size : Nat} (h : w.Laden size) (hm : w.move? m = some w') : w'.Laden size := by
  obtain ⟨notices, hr, -⟩ := exists_of_move? hm
  exact ⟨flow_move? h.flow hm, Relay.wired_move? h.wired hr, numbered_move? h.numbered h.flow hm,
    unanswered_move? h.unanswered h.flow hm⟩

section

variable {size : Nat} (h : w.Laden size)
include h

/-- What was batched and not acknowledged is in the hands of the courier and in its queue. -/
theorem Laden.carried :
    ∃ hand : List Batch, hand.length ≤ 1 ∧
      (∀ c, w.relay.courier = .running c → c.verdict? = none → hand = c.pending) ∧
      (∀ b ∈ hand ++ w.relay.batches.items, b.size ≤ size) ∧
      (if w.relay.courier.isRunning then
        (w.passage.batched.drop w.passage.acknowledged.length).flatMap Batch.events else [])
        = (hand ++ w.relay.batches.items).flatMap Batch.events := by
  cases hrun : w.relay.courier.isRunning with
  | true =>
    obtain ⟨c, hc⟩ := Worker.of_isRunning hrun
    obtain ⟨hand, hlength, hwhole, hpending⟩ := h.unanswered c hc
    refine ⟨hand, hlength, ?_, ?_, ?_⟩
    · intro c' hc'
      obtain rfl := Worker.running.inj (hc.symm.trans hc')
      exact hpending
    · intro b hb
      refine (h.numbered.sizes b ?_).2
      rw [hwhole, List.append_assoc]
      exact List.mem_append_right _ hb
    · rw [if_pos rfl, hwhole, List.append_assoc, List.drop_left]
  | false =>
    -- with the courier went all that it held and that waited for it
    have hgone := h.wired.batches.gone hrun
    refine ⟨[], Nat.zero_le 1, ?_, ?_, ?_⟩
    · intro c hc
      rw [hc] at hrun
      exact absurd hrun (by simp [Worker.isRunning])
    · rw [hgone]
      simp
    · rw [hgone, if_neg (by simp)]
      rfl

/-- What was accepted and not batched is in the hands of the batcher and in its queue. -/
theorem Laden.spooled :
    w.relay.spooled.length ≤ size ∧
      (if w.relay.batcher.isRunning then
        w.passage.accepted.drop (w.passage.batched.flatMap Batch.events).length else [])
        = w.relay.spooled ++ w.relay.events.items := by
  rw [Relay.spooled]
  cases hb : w.relay.batcher with
  | running b =>
    have hf := h.wired.batcher b hb
    refine ⟨?_, ?_⟩
    · have hle := Batcher.length_waiting_le (h.flow.spooled.tidy b hb) hf
      rwa [(h.numbered.next b hb).1] at hle
    · rw [if_pos (by rfl), h.flow.spooled.whole b hb hf, List.append_assoc, List.drop_left]
  | ended b =>
    have hgone := h.wired.events.gone (by rw [hb]; rfl)
    rw [hgone]
    exact ⟨Nat.zero_le _, rfl⟩
  | died reason =>
    have hgone := h.wired.events.gone (by rw [hb]; rfl)
    rw [hgone]
    exact ⟨Nat.zero_le _, rfl⟩

end

/-- **What a relay holds back is bounded**, whatever its producers do, however long no collector can be
reached, and in whatever order it goes on.  The backlog is what the courier holds, what waits for it, what
the batcher holds and what waits for that: at most one batch, one batch, the events of one batch, and sixteen
events. -/
theorem backlog_bounded {settings : BatcherSettings} {keys : Keys} {l : Link} {now : Instant}
    {ms : List Move} (h : (start {} settings keys l now).run? ms = some w) :
    ∃ hand : List Batch,
      w.backlog = (hand ++ w.relay.batches.items).flatMap Batch.events ++
        (w.relay.spooled ++ w.relay.events.items) ∧
      (∀ c, w.relay.courier = .running c → c.verdict? = none → hand = c.pending) ∧
      hand.length ≤ 1 ∧ w.relay.batches.items.length ≤ 1 ∧
      (∀ b ∈ hand ++ w.relay.batches.items, b.size ≤ max settings.size 1) ∧
      w.relay.spooled.length ≤ max settings.size 1 ∧ w.relay.events.items.length ≤ 16 ∧
      w.backlog.length ≤ 16 + 3 * max settings.size 1 := by
  have hladen : w.Laden (max settings.size 1) :=
    runSteps_induction (fun _ _ _ hw hm => laden_move? hw hm) h (laden_start settings keys l now)
  obtain ⟨hand, hone, hpending, hsizes, hcarried⟩ := hladen.carried
  obtain ⟨hspooled, hrest⟩ := hladen.spooled
  have hbatches : w.relay.batches.items.length ≤ 1 := hladen.wired.batches.room
  have hevents : w.relay.events.items.length ≤ 16 := hladen.wired.events.room
  have hbacklog : w.backlog
      = (hand ++ w.relay.batches.items).flatMap Batch.events ++
        (w.relay.spooled ++ w.relay.events.items) := by
    rw [backlog, hcarried, hrest]
  refine ⟨hand, hbacklog, hpending, hone, hbatches, hsizes, hspooled, hevents, ?_⟩
  generalize hn : max settings.size 1 = n at hsizes hspooled ⊢
  have hcarriedLength := length_flatMap_events_le hsizes
  have htwo : (hand ++ w.relay.batches.items).length * n ≤ 2 * n :=
    Nat.mul_le_mul_right n (by rw [List.length_append]; omega)
  rw [hbacklog, List.length_append, List.length_append]
  omega

/-- One line is being delivered, one batch waits for it, one waits for room, and sixteen lines wait for the
batcher. -/
def saturated : List Move :=
  [.announce] ++ spoolLine 1 ++ takeBatch ++ spoolLine 2 ++ [.accept (lineRead 3), .stage .batcher] ++
    (List.range 16).map fun n => .accept (lineRead (n + 4))

/-- The bound is reached, and then no event is accepted any more. -/
theorem backlog_bounded_saturated :
    ∃ w, lineByLine.run? saturated = some w ∧ w.backlog.length ≤ 16 + 3 * max 1 1 ∧
      w.backlog.length = 19 ∧ ∀ e, (w.relay.move? (.accept e)).isNone = true := by
  obtain ⟨w, hw⟩ : ∃ w, lineByLine.run? saturated = some w := Option.isSome_iff_exists.1 rfl
  have hlength : (lineByLine.run? saturated).map (fun w => w.backlog.length) = some 19 := rfl
  have hfull (e : Event) : (lineByLine.run? saturated).map (fun w => (w.relay.move? (.accept e)).isNone)
      = some true := rfl
  rw [hw] at hlength
  simp only [hw] at hfull
  obtain ⟨-, -, -, -, -, -, -, -, hbound⟩ := backlog_bounded hw
  exact ⟨w, hw, hbound, Option.some.inj hlength, fun e => Option.some.inj (hfull e)⟩

end Watched

end LogRelay
