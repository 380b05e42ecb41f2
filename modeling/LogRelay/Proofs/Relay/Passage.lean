import LogRelay.Proofs.Batcher
import LogRelay.Proofs.Courier
import LogRelay.Proofs.Runs
import LogRelay.Relay.Basic

/-!
# What passes through a relay

A relay keeps no record of what has passed through it.  A `Watched` relay does: it is a relay with
all events and batches that have come past four points, in the order in which they did.

* `Passage`: the events that the first queue has accepted, the batches that the second queue has
  accepted, the batches to which a reply has come in, and the batches that the ledger has recorded;
* `Relay.passing`: what passes at a step;
* `Watched.move?`, `Watched.run?`: steps and runs of a watched relay, in any order that is possible;
* `Watched.relay_induction`: what every step of a relay keeps, every run keeps.

The other theorems say what a step of each kind comes to.
-/

namespace LogRelay

/-- What has passed through a relay, the first one first. -/
structure Passage where
  accepted : List Event := []
  batched : List Batch := []
  acknowledged : List Batch := []
  recorded : List Batch := []

instance : Append Passage where
  append p q :=
    ⟨p.accepted ++ q.accepted, p.batched ++ q.batched, p.acknowledged ++ q.acknowledged,
      p.recorded ++ q.recorded⟩

namespace Passage

variable (p q : Passage)

@[simp] theorem accepted_append : (p ++ q).accepted = p.accepted ++ q.accepted := rfl

@[simp] theorem batched_append : (p ++ q).batched = p.batched ++ q.batched := rfl

@[simp] theorem acknowledged_append : (p ++ q).acknowledged = p.acknowledged ++ q.acknowledged := rfl

@[simp] theorem recorded_append : (p ++ q).recorded = p.recorded ++ q.recorded := rfl

theorem append_empty : p ++ {} = p := by
  show Passage.mk (p.accepted ++ []) (p.batched ++ []) (p.acknowledged ++ []) (p.recorded ++ []) = p
  simp only [List.append_nil]

end Passage

namespace Relay

/-- The batch that the ledger records when it has its turn. -/
def recordable? (r : Relay) : Option Batch :=
  match r.ledger with
  | .running l =>
    match l.poll? r.called r.delivered with
    | some (.item b, _) => some b
    | _ => none
  | _ => none

/-- What passes at a step that is possible. -/
def passing (r : Relay) : Move → Passage
  | .accept e => { accepted := [e] }
  | .stage .batcher =>
    match r.batcher with
    | .running b => { batched := (b.handsOn? r.called r.batches).toList }
    | _ => {}
  | .link a =>
    match r.courier with
    | .running c => { acknowledged := (c.acknowledged? a).toList }
    | _ => {}
  | .stage .ledger => { recorded := r.recordable?.toList }
  | _ => {}

end Relay

/-- A relay and all that has passed through it. -/
structure Watched where
  relay : Relay
  passage : Passage := {}

namespace Watched

/-- A relay that is started, before anything has passed through it. -/
def start (capacities : Capacities) (settings : BatcherSettings) (keys : Keys) (l : Link)
    (now : Instant) :
    Watched where
  relay := Relay.start capacities settings keys l now

/-- What comes of a step, if it is possible. -/
def move? (w : Watched) (m : Move) : Option Watched :=
  (w.relay.move? m).map fun (_, relay) => ⟨relay, w.passage ++ w.relay.passing m⟩

/-- What comes of several steps, if each is possible. -/
abbrev run? : Watched → List Move → Option Watched := runSteps move?

theorem exists_of_move? {w w' : Watched} {m : Move} (h : w.move? m = some w') :
    ∃ notices, w.relay.move? m = some (notices, w'.relay) ∧
      w'.passage = w.passage ++ w.relay.passing m := by
  obtain ⟨⟨notices, r⟩, hm, h⟩ := Option.map_eq_some_iff.1 h
  subst h
  exact ⟨notices, hm, rfl⟩

theorem relay_induction {P : Relay → Prop} {w w' : Watched} {ms : List Move}
    (hstep : ∀ {r r' notices m}, P r → r.move? m = some (notices, r') → P r')
    (h : w.run? ms = some w') (hw : P w.relay) : P w'.relay := by
  refine runSteps_induction (P := fun w : Watched => P w.relay) ?_ h hw
  intro m w w' hw hm
  obtain ⟨notices, hr, -⟩ := exists_of_move? hm
  exact hstep hw hr

end Watched

namespace Relay

variable {r r' : Relay} {notices : List RelayNotice}

/-! ### A stage has moved -/

theorem setBatcher_of_finished {b : Batcher} (h : b.isFinished = true) :
    r.setBatcher b = { r with batcher := .ended b }.releaseBatcher := by
  rw [setBatcher, if_pos h]

theorem setBatcher_of_not_finished {b : Batcher} (h : b.isFinished = false) :
    r.setBatcher b = { r with batcher := .running b } := by
  rw [setBatcher, if_neg (by rw [h]; simp)]

/-- A courier that has moved is at work, or has ended well, or has ended with a fault. -/
theorem setCourier_cases (r : Relay) (c : Courier) :
    (c.result? = none ∧ r.setCourier c = { r with courier := .running c }) ∨
    (c.result? = some (.ok ()) ∧ r.setCourier c = { r with courier := .ended c }.releaseCourier) ∨
    ∃ f, c.result? = some (.error f) ∧
      r.setCourier c = { r with courier := .ended c, called := true }.releaseCourier := by
  rw [setCourier]
  cases hr : c.result? with
  | none => exact .inl ⟨rfl, rfl⟩
  | some v =>
    cases v with
    | ok u => exact .inr (.inl ⟨rfl, rfl⟩)
    | error f => exact .inr (.inr ⟨f, rfl, rfl⟩)

/-- A batcher that has moved leaves the other stages and the supervisor as they are. -/
@[simp] theorem setBatcher_frame (r : Relay) (b : Batcher) :
    (r.setBatcher b).courier = r.courier ∧ (r.setBatcher b).ledger = r.ledger ∧
      (r.setBatcher b).supervisor = r.supervisor ∧ (r.setBatcher b).status = r.status := by
  rw [setBatcher]
  split <;> exact ⟨rfl, rfl, rfl, rfl⟩

/-- A courier that has moved leaves the other stages and the supervisor as they are. -/
@[simp] theorem setCourier_frame (r : Relay) (c : Courier) :
    (r.setCourier c).batcher = r.batcher ∧ (r.setCourier c).ledger = r.ledger ∧
      (r.setCourier c).supervisor = r.supervisor ∧ (r.setCourier c).status = r.status := by
  rw [setCourier]
  split <;> exact ⟨rfl, rfl, rfl, rfl⟩

/-! ### Steps -/

theorem move?_accept {e : Event} (h : r.move? (.accept e) = some (notices, r')) :
    0 < r.events.senders ∧ r.events.receiving = true ∧ r.events.items.length < r.events.capacity ∧
      r' = { r with events := { r.events with items := r.events.items ++ [e] } } := by
  rw [move?] at h
  by_cases hs : 0 < r.events.senders
  · rw [if_pos hs] at h
    cases hsend : r.events.send e with
    | accepted q =>
      obtain ⟨hr, hroom, rfl⟩ := Queue.send_eq_accepted hsend
      rw [hsend] at h
      obtain ⟨-, rfl⟩ := Prod.mk.inj (Option.some.inj h)
      exact ⟨hs, hr, hroom, rfl⟩
    | full | closed => rw [hsend] at h; exact absurd h (by simp)
  · rw [if_neg hs] at h
    exact absurd h (by simp)

theorem move?_announce (h : r.move? .announce = some (notices, r')) :
    r.status = .starting ∧
      r' = { r with
        status := .running
        announced := r.announced ++ [.running]
        supervisor := .awaitingCourier } := by
  rw [move?, announceMove?] at h
  by_cases hs : r.status = .starting
  · rw [if_pos hs] at h
    obtain ⟨-, rfl⟩ := Prod.mk.inj (Option.some.inj h)
    exact ⟨hs, rfl⟩
  · rw [if_neg hs] at h
    exact absurd h (by simp)

theorem move?_addProducer (h : r.move? .addProducer = some (notices, r')) :
    0 < r.events.senders ∧ r' = { r with events := r.events.addSender } := by
  rw [move?] at h
  by_cases hs : 0 < r.events.senders
  · rw [if_pos hs] at h
    obtain ⟨-, rfl⟩ := Prod.mk.inj (Option.some.inj h)
    exact ⟨hs, rfl⟩
  · rw [if_neg hs] at h
    exact absurd h (by simp)

theorem move?_dropProducer (h : r.move? .dropProducer = some (notices, r')) :
    0 < r.events.senders ∧ r' = { r with events := r.events.dropSender } := by
  rw [move?] at h
  by_cases hs : 0 < r.events.senders
  · rw [if_pos hs] at h
    obtain ⟨-, rfl⟩ := Prod.mk.inj (Option.some.inj h)
    exact ⟨hs, rfl⟩
  · rw [if_neg hs] at h
    exact absurd h (by simp)

theorem move?_call (h : r.move? .call = some (notices, r')) : r' = { r with calling := true } := by
  rw [move?, callMove?] at h
  split at h
  next =>
    split at h
    · exact absurd h (by simp)
    · exact (Prod.mk.inj (Option.some.inj h)).2.symm
  next => exact absurd h (by simp)

theorem move?_stop (h : r.move? .stop = some (notices, r')) :
    r' = r ∨ r.status ≠ .stopped ∧
      r' = { r with status := .stopping, announced := r.announced ++ [.stopping], called := true } := by
  simp only [move?] at h
  split at h
  · exact absurd h (by simp)
  · obtain ⟨-, rfl⟩ := Prod.mk.inj (Option.some.inj h)
    rw [stop]
    by_cases hs : r.status = .stopped
    · rw [if_pos hs]
      exact .inl rfl
    · rw [if_neg hs]
      exact .inr ⟨hs, rfl⟩

theorem move?_pass {d : Duration} (h : r.move? (.pass d) = some (notices, r')) :
    r' = { r with now := r.now + d.nanos } := by
  rw [move?] at h
  exact (Prod.mk.inj (Option.some.inj h)).2.symm

/-- A stage dies, and its ends of the queues go. -/
theorem move?_die {s : StageName} {reason : String} (h : r.move? (.die s reason) = some (notices, r')) :
    r.batcher.isRunning = true ∧ r' = { r with batcher := .died reason }.releaseBatcher ∨
      r.courier.isRunning = true ∧ r' = { r with courier := .died reason }.releaseCourier ∨
      r.ledger.isRunning = true ∧ r' = { r with ledger := .died reason }.releaseLedger := by
  rw [move?] at h
  cases s with
  | batcher =>
    simp only [dieMove?] at h
    split at h
    next hrun => exact .inl ⟨hrun, (Prod.mk.inj (Option.some.inj h)).2.symm⟩
    next => exact absurd h (by simp)
  | courier =>
    simp only [dieMove?] at h
    split at h
    next hrun => exact .inr (.inl ⟨hrun, (Prod.mk.inj (Option.some.inj h)).2.symm⟩)
    next => exact absurd h (by simp)
  | ledger =>
    simp only [dieMove?] at h
    split at h
    next hrun => exact .inr (.inr ⟨hrun, (Prod.mk.inj (Option.some.inj h)).2.symm⟩)
    next => exact absurd h (by simp)

/-- The supervisor learns that a stage has ended: first the courier, then the batcher, then the
ledger. -/
theorem move?_supervise (h : r.move? .supervise = some (notices, r')) :
    ∃ p,
      (r.published? = some p ∧ r' = { r with supervisor := .awaitingBatcher p }) ∨
      (r.supervisor = .awaitingBatcher p ∧ r.batcher.isRunning = false ∧
        r' = { r with supervisor := .awaitingLedger p }) ∨
      (r.supervisor = .awaitingLedger p ∧ r.ledger.isRunning = false ∧
        r' = { r with
          status := .stopped
          announced := r.announced ++ [.stopped]
          supervisor := .ended p }) := by
  simp only [move?, superviseMove?] at h
  cases hs : r.supervisor with
  | idle | ended => rw [hs] at h; exact absurd h (by simp)
  | awaitingCourier =>
    rw [hs] at h
    obtain ⟨p, hp, h⟩ := Option.map_eq_some_iff.1 h
    exact ⟨p, .inl ⟨hp, (Prod.mk.inj h).2.symm⟩⟩
  | awaitingBatcher p =>
    refine ⟨p, .inr (.inl ⟨rfl, ?_⟩)⟩
    cases hb : r.batcher with
    | running b => simp only [hs, hb] at h; exact absurd h (by simp)
    | ended b => simp only [hs, hb] at h; exact ⟨rfl, (Prod.mk.inj (Option.some.inj h)).2.symm⟩
    | died reason => simp only [hs, hb] at h; exact ⟨rfl, (Prod.mk.inj (Option.some.inj h)).2.symm⟩
  | awaitingLedger p =>
    refine ⟨p, .inr (.inr ⟨rfl, ?_⟩)⟩
    cases hl : r.ledger with
    | running l => simp only [hs, hl] at h; exact absurd h (by simp)
    | ended l => simp only [hs, hl] at h; exact ⟨rfl, (Prod.mk.inj (Option.some.inj h)).2.symm⟩
    | died reason => simp only [hs, hl] at h; exact ⟨rfl, (Prod.mk.inj (Option.some.inj h)).2.symm⟩

theorem move?_batcher (h : r.move? (.stage .batcher) = some (notices, r')) :
    ∃ b b' input output, r.batcher = .running b ∧
      b.Turn r.called r.now r.events r.batches (b.handsOn? r.called r.batches) b' input output ∧
      r' = { r with events := input, batches := output }.setBatcher b' := by
  simp only [move?, stageMove?] at h
  cases hb : r.batcher with
  | running b =>
    rw [hb] at h
    obtain ⟨⟨a, input, output⟩, hp, h⟩ := Option.map_eq_some_iff.1 h
    obtain ⟨-, rfl⟩ := Prod.mk.inj h
    exact ⟨b, _, input, output, rfl, Batcher.turn_of_poll? hp, rfl⟩
  | ended | died => rw [hb] at h; exact absurd h (by simp)

theorem move?_courier (h : r.move? (.stage .courier) = some (notices, r')) :
    ∃ c c' input output, r.courier = .running c ∧
      c.QueueTurn r.called r.batches r.delivered c' input output ∧
      r' = { r with batches := input, delivered := output }.setCourier c' := by
  simp only [move?, stageMove?] at h
  cases hc : r.courier with
  | running c =>
    rw [hc] at h
    obtain ⟨⟨a, input, output⟩, hp, h⟩ := Option.map_eq_some_iff.1 h
    obtain ⟨-, rfl⟩ := Prod.mk.inj h
    exact ⟨c, _, input, output, rfl, Courier.queueTurn_of_poll? hp, rfl⟩
  | ended | died => rw [hc] at h; exact absurd h (by simp)

theorem move?_nonce {bs : Bytes} (h : r.move? (.nonce bs) = some (notices, r')) :
    ∃ c l b, r.courier = .running c ∧ c.stage = .preparing l b ∧ bs.length = nonceSize ∧
      r' = r.setCourier (c.answer (.nonce bs)).next := by
  simp only [move?, nonceMove?] at h
  cases hc : r.courier with
  | running c =>
    rw [hc] at h
    cases hs : c.stage with
    | preparing l b =>
      simp only [Courier.want, hs] at h
      by_cases hlen : bs.length = nonceSize
      · rw [if_pos hlen] at h
        obtain ⟨-, rfl⟩ := Prod.mk.inj (Option.some.inj h)
        exact ⟨c, l, b, rfl, hs, hlen, rfl⟩
      · rw [if_neg hlen] at h
        exact absurd h (by simp)
    | ready | delivering | checking | handing | closing | finished =>
      simp only [Courier.want, hs] at h
      exact absurd h (by simp)
  | ended | died => rw [hc] at h; exact absurd h (by simp)

theorem fits_of_possible {w : LinkWant} {a : LinkAnswer} (h : r.linkAnswerPossible w a = true) :
    a.fits w = true := by
  unfold linkAnswerPossible at h
  exact (Bool.and_eq_true_iff.1 h).1

/-- An answer tells that all was called off only when it was. -/
theorem called_of_isCallOff {w : LinkWant} {a : LinkAnswer} (h : r.linkAnswerPossible w a = true)
    (ha : a.isCallOff = true) : r.called = true := by
  unfold linkAnswerPossible at h
  have h := (Bool.and_eq_true_iff.1 h).2
  cases a with
  | outcome o =>
    cases o with
    | withheld | abandoned => exact (Bool.and_eq_true_iff.1 h).1
    | done | failed | expired => exact absurd ha (by simp [LinkAnswer.isCallOff, Outcome.isCallOff])
  | rested whole =>
    cases whole with
    | true => exact absurd ha (by simp [LinkAnswer.isCallOff])
    | false => simpa using h
  | socket | picked | closed => exact absurd ha (by simp [LinkAnswer.isCallOff])

theorem move?_link {a : LinkAnswer} (h : r.move? (.link a) = some (notices, r')) :
    ∃ c w, r.courier = .running c ∧ c.want = .link w ∧ a.fits w = true ∧
      (a.isCallOff = true → r.called = true) ∧
      r' = { r with calling := false }.setCourier (c.answer (.link a)).next := by
  simp only [move?, linkMove?] at h
  cases hc : r.courier with
  | running c =>
    simp only [hc, linkWant?] at h
    cases hw : c.want with
    | link w =>
      simp only [hw] at h
      by_cases hp : r.linkAnswerPossible w a = true
      · rw [if_pos hp] at h
        obtain ⟨-, rfl⟩ := Prod.mk.inj (Option.some.inj h)
        exact ⟨c, w, rfl, hw, fits_of_possible hp, called_of_isCallOff hp, rfl⟩
      · rw [if_neg hp] at h
        exact absurd h (by simp)
    | batch | nonce | probe | room | nothing => simp only [hw] at h; exact absurd h (by simp)
  | ended | died => simp only [hc, linkWant?] at h; exact absurd h (by simp)

/-- The ledger records a batch, or has ended. -/
theorem move?_ledger (h : r.move? (.stage .ledger) = some (notices, r')) :
    ∃ l, r.ledger = .running l ∧ l.finished = false ∧
      ((∃ b rest, r.called = false ∧ r.delivered.items = b :: rest ∧ r.recordable? = some b ∧
          r' = { r with
            delivered := { r.delivered with items := rest }
            ledger := .running { l with positions := l.positions.recordBatch b }
            positions := l.positions.recordBatch b }) ∨
        ((r.called = true ∨ r.delivered.items = [] ∧ r.delivered.senders = 0) ∧ r.recordable? = none ∧
          r' = { r with ledger := .ended { l with finished := true } }.releaseLedger)) := by
  simp only [move?, stageMove?] at h
  cases hl : r.ledger with
  | running l =>
    rw [hl] at h
    obtain ⟨⟨t, q⟩, hp, h⟩ := Option.map_eq_some_iff.1 h
    obtain ⟨-, rfl⟩ := Prod.mk.inj h
    have hpoll := hp
    rw [Ledger.poll?] at hp
    cases hf : l.finished with
    | true => rw [hf] at hp; exact absurd hp (by simp)
    | false =>
      rw [hf, if_neg (by simp)] at hp
      refine ⟨l, rfl, hf, ?_⟩
      cases Queue.yields_of_take? hp with
      | @item b rest hc hi =>
        refine .inl ⟨b, rest, hc, hi, by simp only [recordable?, hl, hpoll], ?_⟩
        simp only [Ledger.answer, hf, setLedger, Bool.false_eq_true, if_false]
      | closed hc hi hs =>
        refine .inr ⟨.inr ⟨hi, hs⟩, by simp only [recordable?, hl, hpoll], ?_⟩
        simp only [Ledger.answer, hf, setLedger, if_true]
      | cancelled hc =>
        refine .inr ⟨.inl hc, by simp only [recordable?, hl, hpoll], ?_⟩
        simp only [Ledger.answer, hf, setLedger, if_true]
  | ended | died => rw [hl] at h; exact absurd h (by simp)

/-- A stage that has ended stays as it is. -/
theorem ended_move? {m : Move} (h : r.move? m = some (notices, r')) :
    (r.batcher.isRunning = false → r'.batcher = r.batcher) ∧
      (r.courier.isRunning = false → r'.courier = r.courier) ∧
      (r.ledger.isRunning = false → r'.ledger = r.ledger) := by
  cases m with
  | stage s =>
    cases s with
    | batcher =>
      obtain ⟨b, b', input, output, hb, -, rfl⟩ := move?_batcher h
      exact ⟨by simp [hb, Worker.isRunning], by simp, by simp⟩
    | courier =>
      obtain ⟨c, c', input, output, hc, -, rfl⟩ := move?_courier h
      exact ⟨by simp, by simp [hc, Worker.isRunning], by simp⟩
    | ledger =>
      obtain ⟨l, hl, -, ⟨b, rest, -, -, -, rfl⟩ | ⟨-, -, rfl⟩⟩ := move?_ledger h
      · exact ⟨fun _ => rfl, fun _ => rfl, by simp [hl, Worker.isRunning]⟩
      · exact ⟨fun _ => rfl, fun _ => rfl, by simp [hl, Worker.isRunning]⟩
  | nonce bs =>
    obtain ⟨c, l, b, hc, -, -, rfl⟩ := move?_nonce h
    exact ⟨by simp, by simp [hc, Worker.isRunning], by simp⟩
  | link a =>
    obtain ⟨c, want, hc, -, -, -, rfl⟩ := move?_link h
    exact ⟨by simp, by simp [hc, Worker.isRunning], by simp⟩
  | die s reason =>
    rcases move?_die h with ⟨hrun, rfl⟩ | ⟨hrun, rfl⟩ | ⟨hrun, rfl⟩
    · exact ⟨by simp [hrun], fun _ => rfl, fun _ => rfl⟩
    · exact ⟨fun _ => rfl, by simp [hrun], fun _ => rfl⟩
    · exact ⟨fun _ => rfl, fun _ => rfl, by simp [hrun]⟩
  | stop =>
    rcases move?_stop h with rfl | ⟨-, rfl⟩
    · exact ⟨fun _ => rfl, fun _ => rfl, fun _ => rfl⟩
    · exact ⟨fun _ => rfl, fun _ => rfl, fun _ => rfl⟩
  | supervise =>
    obtain ⟨p, ⟨-, rfl⟩ | ⟨-, -, rfl⟩ | ⟨-, -, rfl⟩⟩ := move?_supervise h
    · exact ⟨fun _ => rfl, fun _ => rfl, fun _ => rfl⟩
    · exact ⟨fun _ => rfl, fun _ => rfl, fun _ => rfl⟩
    · exact ⟨fun _ => rfl, fun _ => rfl, fun _ => rfl⟩
  | accept e =>
    obtain ⟨-, -, -, rfl⟩ := move?_accept h
    exact ⟨fun _ => rfl, fun _ => rfl, fun _ => rfl⟩
  | announce =>
    obtain ⟨-, rfl⟩ := move?_announce h
    exact ⟨fun _ => rfl, fun _ => rfl, fun _ => rfl⟩
  | addProducer =>
    obtain ⟨-, rfl⟩ := move?_addProducer h
    exact ⟨fun _ => rfl, fun _ => rfl, fun _ => rfl⟩
  | dropProducer =>
    obtain ⟨-, rfl⟩ := move?_dropProducer h
    exact ⟨fun _ => rfl, fun _ => rfl, fun _ => rfl⟩
  | call =>
    obtain rfl := move?_call h
    exact ⟨fun _ => rfl, fun _ => rfl, fun _ => rfl⟩
  | pass d =>
    obtain rfl := move?_pass h
    exact ⟨fun _ => rfl, fun _ => rfl, fun _ => rfl⟩

end Relay

end LogRelay
