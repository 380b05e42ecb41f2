import LogRelay.Proofs.Relay.CallOff

/-!
# No stage waits for another in vain

Three stages wait for each other in both directions: for an item when a queue is empty, and for room when it
is full.  A relay in which none of them can go on, and which waits neither for a clock nor for the other end
of a socket, has come to its end, or waits for its producers and holds nothing.

* `Relay.StandsStill`: nothing goes on by itself, and nothing is under way;
* `StandsStill.batcher`, `StandsStill.courier`, `StandsStill.ledger`: what a stage then waits for;
* `Relay.held`: all events in a relay;
* `Watched.stands_still`: where a relay can stand still.
-/

namespace LogRelay

/-- Whether a step is a relay's own, and comes without waiting for a clock or for the other end of a
socket. -/
def Move.isInner (m : Move) : Bool :=
  match m with
  | .announce | .supervise => true
  | _ => m.stage?.isSome && m.isPrompt

/-- A courier that waits for a batch holds none. -/
theorem Courier.empty_of_want_batch {c : Courier} (h : c.want = .batch) :
    c.pending = [] ∧ c.unrecorded = [] := by
  rw [want] at h
  rw [pending, unrecorded]
  cases hs : c.stage with
  | ready l => exact ⟨rfl, rfl⟩
  | preparing | delivering | checking | handing | closing | finished =>
    rw [hs] at h
    exact absurd h (by simp)

namespace Relay

/-- Whether a stage waits for a clock. -/
def isTimed (r : Relay) : Bool :=
  (match r.batcher with
    | .running b =>
      match b.want with
      | .event (some _) => true
      | _ => false
    | _ => false) ||
  match r.linkWant? with
  | some (.rest _) => true
  | _ => false

/-- A relay in which nothing goes on by itself, no clock runs, and no call is under way. -/
structure StandsStill (r : Relay) : Prop where
  inner : ∀ m : Move, m.isInner = true → r.move? m = none
  untimed : r.isTimed = false
  calling : r.calling = false

/-- The events that a batcher at work holds. -/
def spooled (r : Relay) : List Event :=
  match r.batcher with
  | .running b => b.waiting
  | _ => []

/-- The batches that a courier at work holds. -/
def carried (r : Relay) : List Batch :=
  match r.courier with
  | .running c => c.pending ++ c.unrecorded
  | _ => []

def held (r : Relay) : List Event :=
  r.events.items ++ r.spooled ++ (r.batches.items ++ r.carried ++ r.delivered.items).flatMap Batch.events

variable {k : Capacities} {r r' : Relay} {m : Move} {notices : List RelayNotice} {s : StageName}

/-! ### What a stage waits for -/

/-- A stage goes on when it can. -/
theorem StandsStill.own (h : r.StandsStill) (hs : m.stage? = some s) (hp : m.isPrompt = true)
    (hm : (r.move? m).isSome = true) : False := by
  have hinner : m.isInner = true := by
    cases m with
    | stage | nonce | call => rfl
    | link a => exact hp
    | announce | supervise => rfl
    | addProducer | dropProducer | accept | die | stop | pass => exact absurd hs (by simp [Move.stage?])
  rw [h.inner m hinner] at hm
  exact absurd hm (by simp)

/-- Where a stage is at work, nothing was called off. -/
theorem StandsStill.not_called (h : r.StandsStill) (hw : r.Wired k)
    (hsound : ∀ c, r.courier = .running c → c.Sound r.called) (hs : r.isAtWork s = true) :
    r.called = false := by
  cases hc : r.called with
  | false => rfl
  | true =>
    rw [hc] at hsound
    obtain ⟨m, hown, hprompt, hm⟩ := exists_prompt_move? hc hw hsound hs
    exact (h.own hown hprompt hm).elim

/-- A ledger waits for the courier. -/
theorem StandsStill.ledger (h : r.StandsStill) (hw : r.Wired k) (hs : r.isAtWork .ledger = true) :
    r.delivered.items = [] ∧ r.isAtWork .courier = true := by
  obtain ⟨l, hl⟩ := Worker.of_isRunning hs
  have hnone : r.delivered.take? r.called = none := by
    cases ht : r.delivered.take? r.called with
    | none => rfl
    | some p =>
      refine (h.own (m := .stage .ledger) rfl rfl ?_).elim
      simp [move?, stageMove?, hl, Ledger.poll?, hw.ledger l hl, ht]
  obtain ⟨-, hitems, hsenders⟩ := Queue.empty_of_take? hnone
  refine ⟨hitems, ?_⟩
  show r.courier.isRunning = true
  simpa [hw.deliveredSenders] using hsenders

/-- A batcher waits for the producers with nothing in its hands, or for the courier to take a batch. -/
theorem StandsStill.batcher {b : Batcher} (h : r.StandsStill) (hw : r.Wired k) (hb : r.batcher = .running b) :
    (b.stage = .collecting ∧ b.spool = [] ∧ r.events.items = [] ∧ 0 < r.events.senders) ∨
      r.isAtWork .courier = true ∧ k.batches ≤ r.batches.items.length := by
  have hnone : b.poll? r.called r.now r.events r.batches = none := by
    cases hp : b.poll? r.called r.now r.events r.batches with
    | none => rfl
    | some p =>
      refine (h.own (m := .stage .batcher) rfl rfl ?_).elim
      simp [move?, stageMove?, hb, hp]
  cases hs : b.stage with
  | collecting =>
    have hspool : b.spool = [] := by
      -- otherwise it would wait for the clock as well
      have huntimed := h.untimed
      simp only [isTimed, hb, Batcher.want, hs] at huntimed
      cases hspool : b.spool with
      | nil => rfl
      | cons e rest => simp [hspool] at huntimed
    obtain ⟨-, hitems, hsenders, -⟩ := Batcher.waits_of_collecting hs hnone
    exact .inl ⟨rfl, hspool, hitems, Nat.pos_of_ne_zero hsenders⟩
  | flushing batch after =>
    obtain ⟨-, hreceiving, hfull⟩ := Batcher.waits_of_flushing hs hnone
    rw [hw.batches.capacity] at hfull
    exact .inr ⟨hw.batches.receiving.symm.trans hreceiving, hfull⟩
  | finished => exact absurd (hw.batcher b hb) (by simp [Batcher.isFinished, hs])

/-- A courier does not wait for its link. -/
theorem StandsStill.linkWant {c : Courier} {w : LinkWant} (h : r.StandsStill) (hcalled : r.called = false)
    (hrun : r.courier = .running c) (hw : c.want = .link w) : w = .nothing := by
  have hlink : r.linkWant? = some w := by simp only [linkWant?, hrun, hw]
  cases w with
  | socket => exact (h.own (m := .link (.socket (.ok ()))) rfl rfl (isSome_move?_link hrun hw rfl)).elim
  | pick among =>
    obtain ⟨a, ha⟩ := List.exists_mem_of_length_pos among.nonempty
    refine (h.own (m := .link (.picked a)) rfl rfl (isSome_move?_link hrun hw ?_)).elim
    simp [linkAnswerPossible, LinkAnswer.fits, ha]
  | call c limit =>
    refine (h.own (m := .call) rfl rfl ?_).elim
    simp [move?, callMove?, hlink, hcalled, h.calling]
  | rest d => exact absurd h.untimed (by simp [isTimed, hlink])
  | close => exact (h.own (m := .link .closed) rfl rfl (isSome_move?_link hrun hw rfl)).elim
  | nothing => rfl

/-- A courier waits for the batcher with nothing in its hands, or for the ledger to take a batch. -/
theorem StandsStill.courier {c : Courier} (h : r.StandsStill) (hw : r.Wired k)
    (hsound : ∀ c, r.courier = .running c → c.Sound r.called) (hc : r.courier = .running c) :
    (c.pending = [] ∧ c.unrecorded = [] ∧ r.batches.items = [] ∧ r.isAtWork .batcher = true) ∨
      r.isAtWork .ledger = true ∧ k.delivered ≤ r.delivered.items.length := by
  have hcalled := h.not_called (s := .courier) hw hsound (by rw [isAtWork, hc]; rfl)
  obtain ⟨hresult, hcl⟩ := hw.courier c hc
  have hnone : c.poll? r.called r.batches r.delivered = none := by
    cases hp : c.poll? r.called r.batches r.delivered with
    | none => rfl
    | some p => exact (h.own (m := .stage .courier) rfl rfl (isSome_move?_courier hc (by rw [hp]; rfl))).elim
  cases hwant : c.want with
  | batch =>
    simp only [Courier.poll?, hwant, Option.map_eq_none_iff] at hnone
    obtain ⟨-, hitems, hsenders⟩ := Queue.empty_of_take? hnone
    obtain ⟨hp, hu⟩ := Courier.empty_of_want_batch hwant
    refine .inl ⟨hp, hu, hitems, ?_⟩
    show r.batcher.isRunning = true
    simpa [hw.batchSenders] using hsenders
  | room b =>
    simp only [Courier.poll?, hwant, Option.map_eq_none_iff] at hnone
    obtain ⟨-, hreceiving, hfull⟩ := Queue.full_of_hand? hnone
    rw [hw.delivered.capacity] at hfull
    exact .inr ⟨hw.delivered.receiving.symm.trans hreceiving, hfull⟩
  | probe => exact absurd hnone (by simp [Courier.poll?, hwant])
  | nonce => exact (h.own (s := .courier) rfl rfl (isSome_move?_nonce hc hwant)).elim
  | link w => exact absurd (h.linkWant hcalled hc hwant) (Courier.link_ne_nothing (hsound c hc) hcl hwant)
  | nothing => exact absurd hwant (Courier.want_ne_nothing hresult)

/-! ### Nobody waits in a circle -/

section

variable (h : r.StandsStill) (hw : r.Wired {}) (hsound : ∀ c, r.courier = .running c → c.Sound r.called)
include h hw hsound

/-- A courier does not wait for room: a ledger at work has emptied its queue. -/
theorem StandsStill.courier_idle {c : Courier} (hc : r.courier = .running c) :
    c.pending = [] ∧ c.unrecorded = [] ∧ r.batches.items = [] ∧ r.isAtWork .batcher = true := by
  rcases h.courier hw hsound hc with hidle | ⟨hledger, hfull⟩
  · exact hidle
  · rw [(h.ledger hw hledger).1] at hfull
    exact absurd hfull (by decide)

/-- A batcher does not wait for room either: a courier at work has emptied its queue. -/
theorem StandsStill.batcher_idle {b : Batcher} (hb : r.batcher = .running b) :
    b.stage = .collecting ∧ b.spool = [] ∧ r.events.items = [] ∧ 0 < r.events.senders := by
  rcases h.batcher hw hb with hidle | ⟨hcourier, hfull⟩
  · exact hidle
  · obtain ⟨c, hc⟩ := Worker.of_isRunning hcourier
    rw [(h.courier_idle hw hsound hc).2.2.1] at hfull
    exact absurd hfull (by decide)

/-- Where a stage is at work, so is the one before it. -/
theorem StandsStill.isAtWork_batcher (hs : r.isAtWork s = true) : r.isAtWork .batcher = true := by
  have hcourier (hs : r.isAtWork .courier = true) : r.isAtWork .batcher = true := by
    obtain ⟨c, hc⟩ := Worker.of_isRunning hs
    exact (h.courier_idle hw hsound hc).2.2.2
  cases s with
  | batcher => exact hs
  | courier => exact hcourier hs
  | ledger => exact hcourier (h.ledger hw hs).2

/-- A relay that stands still holds nothing: what a stage at work could take is taken, and what waits for
any other is gone. -/
theorem StandsStill.held_eq_nil : r.held = [] := by
  have hevents : r.events.items = [] := by
    cases hb : r.batcher.isRunning with
    | true =>
      obtain ⟨b, hb⟩ := Worker.of_isRunning hb
      exact (h.batcher_idle hw hsound hb).2.2.1
    | false => exact hw.events.gone hb
  have hspooled : r.spooled = [] := by
    rw [spooled]
    cases hb : r.batcher with
    | running b =>
      obtain ⟨hs, hspool, -, -⟩ := h.batcher_idle hw hsound hb
      simp only [Batcher.waiting, Batcher.pending, hs, hspool, List.flatMap_nil, List.append_nil]
    | ended | died => rfl
  have hbatches : r.batches.items = [] := by
    cases hc : r.courier.isRunning with
    | true =>
      obtain ⟨c, hc⟩ := Worker.of_isRunning hc
      exact (h.courier_idle hw hsound hc).2.2.1
    | false => exact hw.batches.gone hc
  have hcarried : r.carried = [] := by
    rw [carried]
    cases hc : r.courier with
    | running c =>
      obtain ⟨hp, hu, -, -⟩ := h.courier_idle hw hsound hc
      simp only [hp, hu, List.append_nil]
    | ended | died => rfl
  have hdelivered : r.delivered.items = [] := by
    cases hl : r.ledger.isRunning with
    | true => exact (h.ledger hw hl).1
    | false => exact hw.delivered.gone hl
  rw [held, hevents, hspooled, hbatches, hcarried, hdelivered]
  rfl

end

/-! ### The supervisor -/

/-- A supervisor that has nothing to wait for belongs to a relay that is being started. -/
theorem idle_move? (h : r.supervisor = .idle → r.status = .starting) (hm : r.move? m = some (notices, r')) :
    r'.supervisor = .idle → r'.status = .starting := by
  cases m with
  | announce =>
    obtain ⟨-, rfl⟩ := move?_announce hm
    simp
  | supervise =>
    obtain ⟨p, ⟨-, rfl⟩ | ⟨-, -, rfl⟩ | ⟨-, -, rfl⟩⟩ := move?_supervise hm
    · simp
    · simp
    · simp
  | stop =>
    intro hidle
    rcases move?_stop hm with rfl | ⟨-, rfl⟩
    · exact h hidle
    · -- a relay that is being started cannot be called off
      rw [move?, if_pos (h hidle)] at hm
      exact absurd hm (by simp)
  | stage | nonce | link | die | accept | addProducer | dropProducer | call | pass =>
    obtain ⟨hsupervisor, hstatus⟩ := statusKept_move? rfl hm
    rw [hsupervisor, hstatus]
    exact h

/-- When all stages have ended, a supervisor that cannot go on has a result. -/
theorem StandsStill.exists_result (h : r.StandsStill) (hidle : r.supervisor = .idle → r.status = .starting)
    (hs : ∀ s, r.isAtWork s = false) : ∃ result, r.result? = some result := by
  have hnone : r.superviseMove? = none := h.inner .supervise rfl
  rw [superviseMove?] at hnone
  cases hsup : r.supervisor with
  | ended result => exact ⟨result, by rw [result?, hsup]⟩
  | idle =>
    have hann := h.inner .announce rfl
    rw [move?, announceMove?, if_pos (hidle hsup)] at hann
    exact absurd hann (by simp)
  | awaitingCourier =>
    have hcourier : r.courier.isRunning = false := hs .courier
    simp only [hsup, published?, Option.map_eq_none_iff] at hnone
    cases hc : r.courier with
    | running c => rw [hc] at hcourier; exact absurd hcourier (by simp [Worker.isRunning])
    | died reason => simp [hc] at hnone
    | ended c =>
      simp only [hc] at hnone
      split at hnone <;> exact absurd hnone (by simp)
  | awaitingBatcher p =>
    have hbatcher : r.batcher.isRunning = false := hs .batcher
    cases hb : r.batcher with
    | running b => rw [hb] at hbatcher; exact absurd hbatcher (by simp [Worker.isRunning])
    | ended | died => simp [hsup, hb] at hnone
  | awaitingLedger p =>
    have hledger : r.ledger.isRunning = false := hs .ledger
    cases hl : r.ledger with
    | running l => rw [hl] at hledger; exact absurd hledger (by simp [Worker.isRunning])
    | ended | died => simp [hsup, hl] at hnone

end Relay

/-! ### Runs that come to a stand -/

namespace Watched

variable {settings : BatcherSettings} {keys : Keys} {l : Link} {now : Instant} {ms : List Move} {w : Watched}

theorem idle_run? (h : (start {} settings keys l now).run? ms = some w) :
    w.relay.supervisor = .idle → w.relay.status = .starting :=
  relay_induction (P := fun r => r.supervisor = .idle → r.status = .starting) Relay.idle_move? h
    fun _ => rfl

/-- **No relay gets stuck.**  Whatever has happened to a relay, in whatever order: where none of its stages
and not even the supervisor can go on, no clock runs and no call is under way, all three stages have ended
and the result is there, or the batcher waits for the producers at an empty queue, with nothing in its
spool.  In either case no event is left in the relay. -/
theorem stands_still (h : (start {} settings keys l now).run? ms = some w) (hstill : w.relay.StandsStill) :
    ((∀ s, w.relay.isAtWork s = false) ∧ (∃ result, w.relay.result? = some result) ∨
        ∃ b, w.relay.batcher = .running b ∧ b.stage = .collecting ∧ b.spool = [] ∧
          w.relay.events.items = [] ∧ 0 < w.relay.events.senders) ∧
      w.relay.held = [] := by
  have hflow := flow_run? h (flow_start {} settings keys l now)
  have hw := wired_run? h (Relay.wired_start {} settings keys l now)
  have hsound := hflow.carried.sound
  refine ⟨?_, hstill.held_eq_nil hw hsound⟩
  cases hb : w.relay.isAtWork .batcher with
  | true =>
    obtain ⟨b, hb⟩ := Worker.of_isRunning hb
    exact .inr ⟨b, hb, hstill.batcher_idle hw hsound hb⟩
  | false =>
    have hs (s : StageName) : w.relay.isAtWork s = false := by
      cases hs : w.relay.isAtWork s with
      | false => rfl
      | true => exact absurd ((hstill.isAtWork_batcher hw hsound hs).symm.trans hb) (by simp)
    exact .inl ⟨hs, hstill.exists_result (idle_run? h) hs⟩

/-- A line has been delivered and recorded, and the producer has no other for now. -/
def quiet : List Move := [.announce] ++ spoolLine 1 ++ takeBatch ++ connect ++ exchange ++ recordBatch

theorem stands_still_quiet :
    ∃ w, lineByLine.run? quiet = some w ∧ w.relay.StandsStill ∧ w.passage.recorded = [⟨0, [lineRead 1]⟩] ∧
      w.relay.isAtWork .batcher = true ∧ w.relay.held = [] := by
  obtain ⟨w, hw⟩ : ∃ w, lineByLine.run? quiet = some w := Option.isSome_iff_exists.1 rfl
  have hinner (m : Move) (hm : m.isInner = true) :
      (lineByLine.run? quiet).bind (fun w => w.relay.move? m) = none := by
    cases m with
    | stage s => cases s <;> rfl
    | announce | supervise | nonce | call | link => rfl
    | addProducer | dropProducer | accept | die | stop | pass =>
      exact absurd hm (by simp [Move.isInner, Move.stage?])
  have htimed : (lineByLine.run? quiet).map (fun w => w.relay.isTimed) = some false := rfl
  have hcalling : (lineByLine.run? quiet).map (fun w => w.relay.calling) = some false := rfl
  have hrecorded : (lineByLine.run? quiet).map (fun w => w.passage.recorded) = some [⟨0, [lineRead 1]⟩] := rfl
  have hatWork : (lineByLine.run? quiet).map (fun w => w.relay.isAtWork .batcher) = some true := rfl
  simp only [hw, Option.bind_some] at hinner
  rw [hw] at htimed hcalling hrecorded hatWork
  have hstill : w.relay.StandsStill := ⟨hinner, Option.some.inj htimed, Option.some.inj hcalling⟩
  exact ⟨w, hw, hstill, Option.some.inj hrecorded, Option.some.inj hatWork, (stands_still hw hstill).2⟩

end Watched

end LogRelay
