import LogRelay.Proofs.Relay.Passage

/-!
# Stages and their ends of the queues

A stage holds its ends of the queues exactly as long as it is at work.  When it ends or dies they go
with it, and what nobody can receive any more is gone as well.

* `Relay.isAtWork`, `Relay.hasEnded`, `Relay.death?`: what has become of each stage;
* `Queue.Fits`: a queue that holds no more than it may, and nothing when its receiver is gone;
* `Courier.Closes`: a courier that closes its link waits for the socket alone;
* `Relay.StagesKept`, `stagesKept_move?`: the steps that leave all stages as they are, and
  `statusKept_move?`: those that leave the status as it is;
* `Relay.Wired`, `wired_move?`, `wired_run?`: a relay whose queues have the ends that its stages
  hold, and that it is always one.
-/

namespace LogRelay

/-! ### What becomes of a stage -/

/-- Whether a stage has come to its end. -/
def Worker.hasEnded {σ : Type} : Worker σ → Bool
  | ended _ => true
  | _ => false

/-- Why a stage died. -/
def Worker.death? {σ : Type} : Worker σ → Option String
  | died reason => some reason
  | _ => none

theorem Worker.of_isRunning {σ : Type} {w : Worker σ} (h : w.isRunning = true) : ∃ s, w = .running s := by
  cases w with
  | running s => exact ⟨s, rfl⟩
  | ended | died => exact absurd h (by simp [isRunning])

/-- A stage that is no longer at work has come to its end or died. -/
theorem Worker.hasEnded_iff {σ : Type} {w : Worker σ} (h : w.isRunning = false) :
    w.hasEnded = true ↔ w.death? = none := by
  cases w with
  | running s => exact absurd h (by simp [isRunning])
  | ended s => simp [hasEnded, death?]
  | died reason => simp [hasEnded, death?]

namespace Relay

def isAtWork (r : Relay) : StageName → Bool
  | .batcher => r.batcher.isRunning
  | .courier => r.courier.isRunning
  | .ledger => r.ledger.isRunning

/-- Whether a stage has come to its end. -/
def hasEnded (r : Relay) : StageName → Bool
  | .batcher => r.batcher.hasEnded
  | .courier => r.courier.hasEnded
  | .ledger => r.ledger.hasEnded

/-- Why a stage died. -/
def death? (r : Relay) : StageName → Option String
  | .batcher => r.batcher.death?
  | .courier => r.courier.death?
  | .ledger => r.ledger.death?

theorem hasEnded_iff {r : Relay} {s : StageName} (h : r.isAtWork s = false) :
    r.hasEnded s = true ↔ r.death? s = none := by
  cases s with
  | batcher => exact Worker.hasEnded_iff h
  | courier => exact Worker.hasEnded_iff h
  | ledger => exact Worker.hasEnded_iff h

end Relay

/-! ### Queues between stages -/

namespace Queue

variable {α : Type} {q : Queue α} {n : Nat} {receiver : Bool}

/-- A queue that holds at most `n` items, and none when its receiver is gone. -/
structure Fits (q : Queue α) (n : Nat) (receiver : Bool) : Prop where
  capacity : q.capacity = n
  room : q.items.length ≤ n
  receiving : q.receiving = receiver
  gone : receiver = false → q.items = []

theorem Fits.push (h : q.Fits n receiver) (a : α) (hr : q.receiving = true)
    (hroom : q.items.length < q.capacity) : Fits { q with items := q.items ++ [a] } n receiver := by
  refine ⟨h.capacity, ?_, h.receiving, ?_⟩
  · show (q.items ++ [a]).length ≤ n
    rw [List.length_append, List.length_singleton, ← h.capacity]
    omega
  · intro hgone
    exact absurd (hr.symm.trans (h.receiving.trans hgone)) (by simp)

theorem Fits.pop (h : q.Fits n receiver) {a : α} {rest : List α} (hi : q.items = a :: rest) :
    Fits { q with items := rest } n receiver := by
  refine ⟨h.capacity, ?_, h.receiving, ?_⟩
  · show rest.length ≤ n
    have hroom := h.room
    rw [hi, List.length_cons] at hroom
    omega
  · intro hgone
    exact absurd (hi.symm.trans (h.gone hgone)) (by simp)

theorem Fits.dropReceiver (h : q.Fits n receiver) : q.dropReceiver.Fits n false :=
  ⟨h.capacity, Nat.zero_le n, rfl, fun _ => rfl⟩

theorem Fits.dropSender (h : q.Fits n receiver) : q.dropSender.Fits n receiver :=
  ⟨h.capacity, h.room, h.receiving, h.gone⟩

theorem Fits.addSender (h : q.Fits n receiver) : q.addSender.Fits n receiver :=
  ⟨h.capacity, h.room, h.receiving, h.gone⟩

end Queue

theorem Batcher.fits_turn {called : Bool} {now : Instant} {b b' : Batcher} {input input' : Queue Event}
    {output output' : Queue Batch} {handed : Option Batch} {n m : Nat} {atWork downstream : Bool}
    (ht : b.Turn called now input output handed b' input' output') (hin : input.Fits n atWork)
    (hout : output.Fits m downstream) : input'.Fits n atWork ∧ output'.Fits m downstream := by
  cases ht with
  | kept hc hs hi => exact ⟨hin.pop hi, hout⟩
  | filled hc hs hi => exact ⟨hin.pop hi, hout⟩
  | handed hc hs hr hroom => exact ⟨hin, hout.push _ hr hroom⟩
  | handedLast hc hs hr hroom => exact ⟨hin, hout.push _ hr hroom⟩
  | cancelled | drained | exhausted | due | dropped | cancelledWaiting => exact ⟨hin, hout⟩

namespace Courier

variable {c c' : Courier}

theorem fits_queueTurn {called : Bool} {input input' output output' : Queue Batch} {n m : Nat}
    {atWork downstream : Bool} (ht : c.QueueTurn called input output c' input' output')
    (hin : input.Fits n atWork) (hout : output.Fits m downstream) :
    input'.Fits n atWork ∧ output'.Fits m downstream := by
  cases ht with
  | took hc hs hi => exact ⟨hin.pop hi, hout⟩
  | tookEmpty hc hs hi => exact ⟨hin.pop hi, hout⟩
  | handed hc hs hr hroom => exact ⟨hin, hout.push _ hr hroom⟩
  | exhausted | cancelled | wanted | unwanted | dropped | cancelledWaiting => exact ⟨hin, hout⟩

/-! ### The link of a courier that comes to its end -/

/-- A courier that closes its link waits for nothing but the socket. -/
def Closes (c : Courier) : Prop := ∀ o r, c.stage = .closing o r → o.stage = .ending (.stop [] (.ok []))

theorem closes_of_ne (h : ∀ o r, c.stage ≠ .closing o r) : c.Closes := fun o r hs => absurd hs (h o r)

theorem closes_wrapUp (c : Courier) (notices : List CourierNotice) (l : Link)
    (r : Except PublishFault Unit) : (c.wrapUp notices l r).next.Closes := by
  intro o v hs
  cases hl : l.session with
  | none =>
    rw [next_wrapUp_of_none c notices r hl] at hs
    exact absurd hs (by simp)
  | some s =>
    rw [next_wrapUp_of_some c notices r hl] at hs
    obtain ⟨rfl, -⟩ := CourierStage.closing.inj hs
    rfl

theorem closes_deliver (c : Courier) (notices : List CourierNotice) (d : Delivery) :
    (c.deliver notices d).next.Closes := by
  rw [deliver]
  cases hr : d.result with
  | none => exact closes_of_ne (by simp [goto])
  | some v =>
    cases v with
    | ok u => exact closes_of_ne (by simp [goto])
    | error f => cases f <;> exact closes_wrapUp _ _ _ _

/-- No answer lets a courier wait for anything else. -/
theorem closes_answer (h : c.Closes) (a : CourierAnswer) : (c.answer a).next.Closes := by
  unfold answer
  split
  · split <;> exact closes_of_ne (by simp [goto])
  · exact closes_wrapUp _ _ _ _
  · exact closes_wrapUp _ _ _ _
  · exact closes_deliver _ _ _
  · exact closes_deliver _ _ _
  · exact closes_of_ne (by simp [goto])
  · exact closes_of_ne (by simp [goto])
  · exact closes_of_ne (by simp [goto])
  next o r x hs =>
    have hstage := h o r hs
    cases x with
    | closed =>
      have hover : (o.answer .closed).next.result? = some (.ok []) := by
        simp only [Operation.answer, hstage, Operation.goto, Operation.result?]
      rw [closeWith, hover]
      exact closes_of_ne (by simp [goto])
    | socket | picked | outcome | rested =>
      simp only [Operation.answer, hstage, closeWith, Operation.result?]
      intro o' r' hs'
      obtain ⟨rfl, -⟩ := CourierStage.closing.inj hs'
      exact hstage
  · exact h

end Courier

/-! ### Steps that leave the stages or the status as they are -/

/-- Whether a step leaves all stages as they are. -/
def Move.keepsStages : Move → Bool
  | .announce | .addProducer | .dropProducer | .accept _ | .call | .stop | .supervise | .pass _ => true
  | .stage _ | .nonce _ | .link _ | .die _ _ => false

/-- Whether a step leaves the status and the supervisor as they are. -/
def Move.keepsStatus : Move → Bool
  | .announce | .stop | .supervise => false
  | .addProducer | .dropProducer | .accept _ | .stage _ | .nonce _ | .call | .link _ | .die _ _ | .pass _ => true

namespace Relay

variable {k : Capacities} {r r' : Relay} {m : Move} {notices : List RelayNotice}

/-- The stages of a relay are as they were, and so is what lies between them. -/
structure StagesKept (r r' : Relay) : Prop where
  batcher : r'.batcher = r.batcher
  courier : r'.courier = r.courier
  ledger : r'.ledger = r.ledger
  events : ∀ {n receiver}, r.events.Fits n receiver → r'.events.Fits n receiver
  batches : r'.batches = r.batches
  delivered : r'.delivered = r.delivered
  positions : r'.positions = r.positions
  called : r.called = true → r'.called = true

theorem stagesKept_move? (hk : m.keepsStages = true) (hm : r.move? m = some (notices, r')) :
    r.StagesKept r' := by
  cases m with
  | stage | nonce | link | die => exact absurd hk (by simp [Move.keepsStages])
  | accept e =>
    obtain ⟨-, hr, hroom, rfl⟩ := move?_accept hm
    exact ⟨rfl, rfl, rfl, fun h => h.push e hr hroom, rfl, rfl, rfl, id⟩
  | addProducer =>
    obtain ⟨-, rfl⟩ := move?_addProducer hm
    exact ⟨rfl, rfl, rfl, fun h => h.addSender, rfl, rfl, rfl, id⟩
  | dropProducer =>
    obtain ⟨-, rfl⟩ := move?_dropProducer hm
    exact ⟨rfl, rfl, rfl, fun h => h.dropSender, rfl, rfl, rfl, id⟩
  | announce =>
    obtain ⟨-, rfl⟩ := move?_announce hm
    exact ⟨rfl, rfl, rfl, id, rfl, rfl, rfl, id⟩
  | call =>
    obtain rfl := move?_call hm
    exact ⟨rfl, rfl, rfl, id, rfl, rfl, rfl, id⟩
  | pass d =>
    obtain rfl := move?_pass hm
    exact ⟨rfl, rfl, rfl, id, rfl, rfl, rfl, id⟩
  | stop =>
    rcases move?_stop hm with rfl | ⟨-, rfl⟩
    · exact ⟨rfl, rfl, rfl, id, rfl, rfl, rfl, id⟩
    · exact ⟨rfl, rfl, rfl, id, rfl, rfl, rfl, fun _ => rfl⟩
  | supervise =>
    obtain ⟨p, ⟨-, rfl⟩ | ⟨-, -, rfl⟩ | ⟨-, -, rfl⟩⟩ := move?_supervise hm
    · exact ⟨rfl, rfl, rfl, id, rfl, rfl, rfl, id⟩
    · exact ⟨rfl, rfl, rfl, id, rfl, rfl, rfl, id⟩
    · exact ⟨rfl, rfl, rfl, id, rfl, rfl, rfl, id⟩

theorem statusKept_move? (hk : m.keepsStatus = true) (hm : r.move? m = some (notices, r')) :
    r'.supervisor = r.supervisor ∧ r'.status = r.status := by
  cases m with
  | announce | stop | supervise => exact absurd hk (by simp [Move.keepsStatus])
  | stage s =>
    cases s with
    | batcher =>
      obtain ⟨b, b', input, output, -, -, rfl⟩ := move?_batcher hm
      simp
    | courier =>
      obtain ⟨c, c', input, output, -, -, rfl⟩ := move?_courier hm
      simp
    | ledger =>
      obtain ⟨l, -, -, ⟨b, rest, -, -, -, rfl⟩ | ⟨-, -, rfl⟩⟩ := move?_ledger hm
      · exact ⟨rfl, rfl⟩
      · exact ⟨rfl, rfl⟩
  | nonce bs =>
    obtain ⟨c, l, b, -, -, -, rfl⟩ := move?_nonce hm
    simp
  | link a =>
    obtain ⟨c, want, -, -, -, -, rfl⟩ := move?_link hm
    simp
  | die s reason =>
    rcases move?_die hm with ⟨-, rfl⟩ | ⟨-, rfl⟩ | ⟨-, rfl⟩
    · exact ⟨rfl, rfl⟩
    · exact ⟨rfl, rfl⟩
    · exact ⟨rfl, rfl⟩
  | accept e =>
    obtain ⟨-, -, -, rfl⟩ := move?_accept hm
    exact ⟨rfl, rfl⟩
  | addProducer =>
    obtain ⟨-, rfl⟩ := move?_addProducer hm
    exact ⟨rfl, rfl⟩
  | dropProducer =>
    obtain ⟨-, rfl⟩ := move?_dropProducer hm
    exact ⟨rfl, rfl⟩
  | call =>
    obtain rfl := move?_call hm
    exact ⟨rfl, rfl⟩
  | pass d =>
    obtain rfl := move?_pass hm
    exact ⟨rfl, rfl⟩

/-! ### The ends of the queues -/

/-- A relay whose queues have the ends that its stages hold, and whose stages at work have not come
to their end. -/
structure Wired (k : Capacities) (r : Relay) : Prop where
  events : r.events.Fits k.events r.batcher.isRunning
  batches : r.batches.Fits k.batches r.courier.isRunning
  delivered : r.delivered.Fits k.delivered r.ledger.isRunning
  batchSenders : r.batches.senders = r.batcher.isRunning.toNat
  deliveredSenders : r.delivered.senders = r.courier.isRunning.toNat
  batcher : ∀ b, r.batcher = .running b → b.isFinished = false
  courier : ∀ c, r.courier = .running c → c.result? = none ∧ c.Closes
  ledger : ∀ l, r.ledger = .running l → l.finished = false
  result : ∀ c, r.courier = .ended c → c.result? ≠ none

theorem Wired.keep (h : Wired k r) (hs : r.StagesKept r') : Wired k r' := by
  refine ⟨?_, ?_, ?_, ?_, ?_, ?_, ?_, ?_, ?_⟩
  · rw [hs.batcher]
    exact hs.events h.events
  · rw [hs.batches, hs.courier]
    exact h.batches
  · rw [hs.delivered, hs.ledger]
    exact h.delivered
  · rw [hs.batches, hs.batcher]
    exact h.batchSenders
  · rw [hs.delivered, hs.courier]
    exact h.deliveredSenders
  · rw [hs.batcher]
    exact h.batcher
  · rw [hs.courier]
    exact h.courier
  · rw [hs.ledger]
    exact h.ledger
  · rw [hs.courier]
    exact h.result

theorem Wired.releaseBatcher (h : Wired k r) (hb : r.batcher.isRunning = true) {batcher : Worker Batcher}
    (hgone : batcher.isRunning = false) : Wired k { r with batcher }.releaseBatcher := by
  refine ⟨?_, h.batches.dropSender, h.delivered, ?_, h.deliveredSenders, ?_, h.courier, h.ledger, h.result⟩
  · show r.events.dropReceiver.Fits k.events batcher.isRunning
    rw [hgone]
    exact h.events.dropReceiver
  · show r.batches.senders - 1 = batcher.isRunning.toNat
    rw [h.batchSenders, hb, hgone]
    rfl
  · intro b hrun
    have hrun : batcher = .running b := hrun
    rw [hrun] at hgone
    exact absurd hgone (by simp [Worker.isRunning])

theorem Wired.releaseCourier (h : Wired k r) (hc : r.courier.isRunning = true) {courier : Worker Courier}
    (hgone : courier.isRunning = false) (hresult : ∀ c, courier = .ended c → c.result? ≠ none) :
    Wired k { r with courier }.releaseCourier := by
  refine ⟨h.events, ?_, h.delivered.dropSender, h.batchSenders, ?_, h.batcher, ?_, h.ledger, hresult⟩
  · show r.batches.dropReceiver.Fits k.batches courier.isRunning
    rw [hgone]
    exact h.batches.dropReceiver
  · show r.delivered.senders - 1 = courier.isRunning.toNat
    rw [h.deliveredSenders, hc, hgone]
    rfl
  · intro c hrun
    have hrun : courier = .running c := hrun
    rw [hrun] at hgone
    exact absurd hgone (by simp [Worker.isRunning])

theorem Wired.releaseLedger (h : Wired k r) {ledger : Worker Ledger} (hgone : ledger.isRunning = false) :
    Wired k { r with ledger }.releaseLedger := by
  refine ⟨h.events, h.batches, ?_, h.batchSenders, h.deliveredSenders, h.batcher, h.courier, ?_, h.result⟩
  · show r.delivered.dropReceiver.Fits k.delivered ledger.isRunning
    rw [hgone]
    exact h.delivered.dropReceiver
  · intro l hrun
    have hrun : ledger = .running l := hrun
    rw [hrun] at hgone
    exact absurd hgone (by simp [Worker.isRunning])

theorem Wired.setBatcher (h : Wired k r) (hb : r.batcher.isRunning = true) (b : Batcher) :
    Wired k (r.setBatcher b) := by
  cases hf : b.isFinished with
  | true =>
    rw [setBatcher_of_finished hf]
    exact h.releaseBatcher hb rfl
  | false =>
    rw [setBatcher_of_not_finished hf]
    have hsame : r.batcher.isRunning = (Worker.running b).isRunning := hb
    refine ⟨?_, h.batches, h.delivered, ?_, h.deliveredSenders, ?_, h.courier, h.ledger, h.result⟩
    · show r.events.Fits k.events (Worker.running b).isRunning
      rw [← hsame]
      exact h.events
    · show r.batches.senders = (Worker.running b).isRunning.toNat
      rw [← hsame]
      exact h.batchSenders
    · intro b' hrun
      obtain rfl := Worker.running.inj hrun
      exact hf

theorem Wired.setCourier (h : Wired k r) (hc : r.courier.isRunning = true) {c : Courier} (hcl : c.Closes) :
    Wired k (r.setCourier c) := by
  have hended (v : Except PublishFault Unit) (hr : c.result? = some v) :
      ∀ x, Worker.ended c = .ended x → x.result? ≠ none := by
    intro x hx
    obtain rfl := Worker.ended.inj hx
    rw [hr]
    simp
  rcases r.setCourier_cases c with ⟨hr, heq⟩ | ⟨hr, heq⟩ | ⟨f, hr, heq⟩
  · rw [heq]
    have hsame : r.courier.isRunning = (Worker.running c).isRunning := hc
    refine ⟨h.events, ?_, h.delivered, h.batchSenders, ?_, h.batcher, ?_, h.ledger, by simp⟩
    · show r.batches.Fits k.batches (Worker.running c).isRunning
      rw [← hsame]
      exact h.batches
    · show r.delivered.senders = (Worker.running c).isRunning.toNat
      rw [← hsame]
      exact h.deliveredSenders
    · intro c' hrun
      obtain rfl := Worker.running.inj hrun
      exact ⟨hr, hcl⟩
  · rw [heq]
    exact h.releaseCourier hc rfl (hended _ hr)
  · rw [heq]
    have hcalled : Wired k { r with called := true } :=
      h.keep ⟨rfl, rfl, rfl, id, rfl, rfl, rfl, fun _ => rfl⟩
    exact hcalled.releaseCourier hc rfl (hended _ hr)

/-- A courier that goes on at its queues goes on as it is answered. -/
theorem exists_answer_of_courier (h : r.move? (.stage .courier) = some (notices, r')) :
    ∃ c x input output, r.courier = .running c ∧
      c.QueueTurn r.called r.batches r.delivered (c.answer x).next input output ∧
      r' = { r with batches := input, delivered := output }.setCourier (c.answer x).next := by
  simp only [move?, stageMove?] at h
  cases hc : r.courier with
  | running c =>
    rw [hc] at h
    obtain ⟨⟨x, input, output⟩, hp, h⟩ := Option.map_eq_some_iff.1 h
    obtain ⟨-, rfl⟩ := Prod.mk.inj h
    exact ⟨c, x, input, output, rfl, Courier.queueTurn_of_poll? hp, rfl⟩
  | ended | died => rw [hc] at h; exact absurd h (by simp)

/-- **Every step keeps a relay wired.** -/
theorem wired_move? (h : Wired k r) (hm : r.move? m = some (notices, r')) : Wired k r' := by
  cases m with
  | stage s =>
    cases s with
    | batcher =>
      obtain ⟨b, b', input, output, hb, ht, rfl⟩ := move?_batcher hm
      obtain ⟨hin, hout⟩ := Batcher.fits_turn ht h.events h.batches
      have hsenders := (Batcher.ends_turn ht).2.1
      have hq : Wired k { r with events := input, batches := output } :=
        ⟨hin, hout, h.delivered, hsenders.trans h.batchSenders, h.deliveredSenders, h.batcher, h.courier,
          h.ledger, h.result⟩
      exact hq.setBatcher (by rw [hb]; rfl) b'
    | courier =>
      obtain ⟨c, x, input, output, hc, ht, rfl⟩ := exists_answer_of_courier hm
      obtain ⟨hin, hout⟩ := Courier.fits_queueTurn ht h.batches h.delivered
      obtain ⟨hsenders, -, hsenders'⟩ := Courier.ends_queueTurn ht
      have hq : Wired k { r with batches := input, delivered := output } :=
        ⟨h.events, hin, hout, hsenders.trans h.batchSenders, hsenders'.trans h.deliveredSenders, h.batcher,
          h.courier, h.ledger, h.result⟩
      exact hq.setCourier (by rw [hc]; rfl) (Courier.closes_answer (h.courier c hc).2 x)
    | ledger =>
      obtain ⟨l, hl, hf, ⟨b, rest, -, hi, -, rfl⟩ | ⟨-, -, rfl⟩⟩ := move?_ledger hm
      · have hdelivered := h.delivered.pop hi
        rw [hl] at hdelivered
        refine ⟨h.events, h.batches, hdelivered, h.batchSenders, h.deliveredSenders, h.batcher, h.courier,
          ?_, h.result⟩
        intro l' hrun
        obtain rfl := Worker.running.inj hrun
        exact hf
      · exact h.releaseLedger rfl
  | nonce bs =>
    obtain ⟨c, l, b, hc, -, -, rfl⟩ := move?_nonce hm
    exact h.setCourier (by rw [hc]; rfl) (Courier.closes_answer (h.courier c hc).2 _)
  | link a =>
    obtain ⟨c, want, hc, -, -, -, rfl⟩ := move?_link hm
    have hq : Wired k { r with calling := false } := h.keep ⟨rfl, rfl, rfl, id, rfl, rfl, rfl, id⟩
    exact hq.setCourier (by rw [hc]; rfl) (Courier.closes_answer (h.courier c hc).2 _)
  | die s reason =>
    rcases move?_die hm with ⟨hrun, rfl⟩ | ⟨hrun, rfl⟩ | ⟨-, rfl⟩
    · exact h.releaseBatcher hrun rfl
    · exact h.releaseCourier hrun rfl (by simp)
    · exact h.releaseLedger rfl
  | announce | addProducer | dropProducer | accept | call | stop | supervise | pass =>
    exact h.keep (stagesKept_move? rfl hm)

theorem wired_start (k : Capacities) (settings : BatcherSettings) (keys : Keys) (l : Link)
    (now : Instant) : Wired k (start k settings keys l now) := by
  refine ⟨⟨rfl, Nat.zero_le _, rfl, fun _ => rfl⟩, ⟨rfl, Nat.zero_le _, rfl, fun _ => rfl⟩,
    ⟨rfl, Nat.zero_le _, rfl, fun _ => rfl⟩, rfl, rfl, ?_, ?_, ?_, by simp [start]⟩
  · intro b hb
    obtain rfl := Worker.running.inj hb
    rfl
  · intro c hc
    obtain rfl := Worker.running.inj hc
    exact ⟨rfl, Courier.closes_of_ne (by simp [Courier.start])⟩
  · intro l' hl
    obtain rfl := Worker.running.inj hl
    rfl

end Relay

theorem Watched.wired_run? {k : Capacities} {w w' : Watched} {ms : List Move}
    (h : w.run? ms = some w') (hw : w.relay.Wired k) : w'.relay.Wired k :=
  relay_induction Relay.wired_move? h hw

end LogRelay
