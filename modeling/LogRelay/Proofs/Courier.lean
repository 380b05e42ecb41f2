import LogRelay.Proofs.Delivery
import LogRelay.Proofs.Queue

/-!
# The turns of a courier

* `Courier.pending`, `Courier.unrecorded`: the batch that a courier holds, before and after it is
  delivered;
* `Courier.verdict?`: what a courier has come to, from the moment that it takes no more batches;
* `Courier.acknowledged?`: the batch whose reply comes in;
* `Courier.Sound`: a courier whose delivery is sound;
* `Courier.LinkTurn`, `linkTurn_delivering`: all that an answer of the link can lead to during a
  delivery;
* `Courier.receive_of_checking`: a batch counts as delivered only when a reply has come;
* `Courier.box_answer`: the keys stay the same;
* `Courier.QueueTurn`, `queueTurn_of_poll?`: all that a courier can do at its queues.
-/

namespace LogRelay.Courier

/-- The batch that is to be delivered. -/
def pending (c : Courier) : List Batch :=
  match c.stage with
  | .preparing _ b => [b]
  | .delivering d => [d.prepared.batch]
  | _ => []

/-- The batch that is delivered and is to be recorded. -/
def unrecorded (c : Courier) : List Batch :=
  match c.stage with
  | .checking _ b | .handing _ b => [b]
  | _ => []

/-- What a courier has come to, once it takes no more batches. -/
def verdict? (c : Courier) : Option (Except PublishFault Unit) :=
  match c.stage with
  | .closing _ r | .finished _ r => some r
  | _ => none

/-- The batch whose reply comes in with an answer. -/
def acknowledged? (c : Courier) (a : LinkAnswer) : Option Batch :=
  match c.stage, c.want, a with
  | .delivering d, .link (.call .receive _), .outcome (.done _) => some d.prepared.batch
  | _, _, _ => none

/-- A courier whose delivery, if there is one, is sound. -/
def Sound (called : Bool) (c : Courier) : Prop := ∀ d, c.stage = .delivering d → d.Sound called

theorem Sound.mono {called called' : Bool} {c : Courier} (h : c.Sound called)
    (hc : called = true → called' = true) : c.Sound called' :=
  fun d hd => (h d hd).mono hc

/-- A courier that does not deliver is sound. -/
theorem sound_of_ne {called : Bool} {c : Courier} (h : ∀ d, c.stage ≠ .delivering d) : c.Sound called :=
  fun d hd => absurd hd (h d)

theorem verdict?_of_result? {c : Courier} {r : Except PublishFault Unit} (h : c.result? = some r) :
    c.verdict? = some r := by
  rw [result?] at h
  cases hs : c.stage with
  | finished l v =>
    rw [hs] at h
    rw [verdict?, hs]
    exact h
  | ready | preparing | delivering | checking | handing | closing =>
    rw [hs] at h
    exact absurd h (by simp)

/-! ### Coming to an end -/

theorem next_wrapUp_of_none (c : Courier) (notices : List CourierNotice) {l : Link}
    (r : Except PublishFault Unit) (hl : l.session = none) :
    (c.wrapUp notices l r).next = { c with stage := .finished l r } := by
  simp only [wrapUp, closeWith, Operation.start_of_none hl, Operation.stageWithout,
    Operation.result?, goto]

theorem next_wrapUp_of_some (c : Courier) (notices : List CourierNotice) {l : Link} {s : Session}
    (r : Except PublishFault Unit) (hl : l.session = some s) :
    (c.wrapUp notices l r).next
      = { c with
          stage := .closing ⟨{ l with session := none }, .close, .ending (.stop [] (.ok []))⟩ r } := by
  simp only [wrapUp, closeWith, Operation.start_close_of_some hl, Operation.result?, goto]

theorem verdict?_wrapUp (c : Courier) (notices : List CourierNotice) (l : Link)
    (r : Except PublishFault Unit) : (c.wrapUp notices l r).next.verdict? = some r := by
  cases hl : l.session with
  | none => rw [next_wrapUp_of_none c notices r hl]; rfl
  | some s => rw [next_wrapUp_of_some c notices r hl]; rfl

theorem verdict?_closeWith (c : Courier) (notices : List CourierNotice) (o : Operation)
    (r : Except PublishFault Unit) : (c.closeWith notices o r).next.verdict? = some r := by
  rw [closeWith]
  split <;> rfl

/-- A courier that has come to something neither delivers nor holds anything. -/
theorem of_verdict? {c : Courier} {r : Except PublishFault Unit} (h : c.verdict? = some r) :
    c.pending = [] ∧ c.unrecorded = [] ∧ ∀ d, c.stage ≠ .delivering d := by
  rw [verdict?] at h
  cases hs : c.stage with
  | closing | finished => exact ⟨by rw [pending, hs], by rw [unrecorded, hs], by simp⟩
  | ready | preparing | delivering | checking | handing =>
    rw [hs] at h
    exact absurd h (by simp)

/-- A courier that has come to something is not at work on a batch. -/
theorem stage_of_verdict? {c : Courier} {r : Except PublishFault Unit} (h : c.verdict? = some r) :
    (∀ l b, c.stage ≠ .preparing l b) ∧ ∀ l b, c.stage ≠ .checking l b := by
  obtain ⟨hpending, hunrecorded, -⟩ := of_verdict? h
  refine ⟨?_, ?_⟩
  · intro l b hs
    rw [pending, hs] at hpending
    exact absurd hpending (by simp)
  · intro l b hs
    rw [unrecorded, hs] at hunrecorded
    exact absurd hunrecorded (by simp)

/-! ### The link answers -/

/-- What an answer of the link leads to during a delivery, with the batch that is acknowledged by
it.  A delivery is given up without a fault only because all was called off. -/
inductive LinkTurn (called : Bool) (c : Courier) (d : Delivery) : Option Batch → Courier → Prop where
  | ongoing {d' : Delivery} (hd : d'.Sound called) (hb : d'.prepared.batch = d.prepared.batch) :
      LinkTurn called c d none { c with stage := .delivering d' }
  | acknowledged (l : Link) :
      LinkTurn called c d (some d.prepared.batch) { c with stage := .checking l d.prepared.batch }
  | givenUp {c' : Courier} {r : Except PublishFault Unit} (hv : c'.verdict? = some r)
      (hr : r = .ok () → called = true) : LinkTurn called c d none c'

variable {called : Bool} {c : Courier} {d : Delivery} {a : LinkAnswer}

theorem next_answer_delivering (hs : c.stage = .delivering d) :
    (c.answer (.link a)).next = (c.deliver (d.answer a).notices (d.answer a).next).next := by
  simp only [answer, hs]

theorem delivering_of_acknowledged? {b : Batch} (h : c.acknowledged? a = some b) :
    ∃ d s reply, c.stage = .delivering d ∧ b = d.prepared.batch ∧ d.operation.stage = .using s ∧
      d.operation.goal = .receive ∧ d.result = none ∧ a = .outcome (.done reply) := by
  unfold acknowledged? at h
  split at h
  next d limit reply hs hw =>
    simp only [want, hs, CourierWant.link.injEq] at hw
    rw [Delivery.want] at hw
    split at hw
    · exact absurd hw (by simp)
    next hr =>
      obtain ⟨s, hu, hg⟩ := Operation.using_of_want_receive hw
      exact ⟨d, s, reply, hs, (Option.some.inj h).symm, hu, hg, hr, rfl⟩
  next => exact absurd h (by simp)

/-- A delivery has succeeded when its batch is acknowledged. -/
theorem result_of_acknowledged? {d' : Delivery} {b : Batch} (hs : c.stage = .delivering d)
    (hd : d.Sound called) (ht : d.Turn a d') (h : c.acknowledged? a = some b) :
    d'.result = some (.ok ()) ∧ b = d.prepared.batch := by
  obtain ⟨d₁, s, reply, hs₁, rfl, hu, hg, -, rfl⟩ := delivering_of_acknowledged? h
  obtain rfl := CourierStage.delivering.inj (hs₁.symm.trans hs)
  refine ⟨?_, rfl⟩
  have hleg : d₁.leg = .reply := by
    have hgoal := hd.goal.symm.trans hg
    cases hl : d₁.leg with
    | reply => rfl
    | nonce | ciphertext => rw [hl] at hgoal; exact absurd hgoal (by simp [Delivery.goal])
  cases ht with
  | replied => rfl
  | ongoing ho hr => exact absurd (hr.symm.trans (Operation.result?_of_received hu hg ho)) (by simp)
  | nonceOut _ _ hl | ciphertextOut _ _ hl => exact absurd (hleg.symm.trans hl) (by simp)
  | cancelled ho hr | stranded ho hr | retried ho hr =>
    exact absurd (hr.symm.trans (Operation.result?_of_received hu hg ho)) (by simp)

/-- A delivery succeeds only when its batch is acknowledged. -/
theorem acknowledged?_of_result {d' : Delivery} (hs : c.stage = .delivering d) (hd : d.Sound called)
    (ht : d.Turn a d') (ha : a.isCallOff = true → called = true) (h : d'.result = some (.ok ())) :
    c.acknowledged? a = some d.prepared.batch := by
  cases ht with
  | @replied o reply ho hr hl =>
    have hg : d.operation.goal = .receive := by rw [hd.goal, hl]; rfl
    rcases Operation.result_turn ho hd.operation (by simp [hg]) ha hr with
      ⟨s, frame, _, hu, rfl, -⟩ | ⟨f, hf, -⟩
    · have hw : c.want = .link (.call .receive d.operation.link.limits.receive) := by
        simp only [want, hs, Delivery.want, hd.result, Operation.want, hu, hg, Operation.callOf]
      simp only [acknowledged?, hs, hw]
    · exact absurd hf (by simp)
  | ongoing => exact absurd (hd.result.symm.trans h) (by simp)
  | nonceOut | ciphertextOut | retried => exact absurd h (by simp)
  | cancelled | stranded => exact absurd h (by simp)

/-- **An answer of the wanted kind is one of the turns above.** -/
theorem linkTurn_delivering (hs : c.stage = .delivering d) (hd : d.Sound called)
    (hfit : a.fits d.want = true) (ha : a.isCallOff = true → called = true) :
    c.LinkTurn called d (c.acknowledged? a) (c.answer (.link a)).next := by
  have ht := Delivery.turn_answer hd.result hfit
  rw [next_answer_delivering hs]
  generalize (d.answer a).notices = notices
  generalize (d.answer a).next = d' at ht ⊢
  have hnone (h : d'.result ≠ some (.ok ())) : c.acknowledged? a = none := by
    cases hk : c.acknowledged? a with
    | none => rfl
    | some b => exact absurd (result_of_acknowledged? hs hd ht hk).1 h
  rcases Delivery.sound_turn ht hd ha with hd' | hok | ⟨f, hf, hcalled⟩
  · rw [hnone (by rw [hd'.result]; simp), deliver, hd'.result]
    exact .ongoing hd' (Delivery.prepared_turn ht).1
  · rw [acknowledged?_of_result hs hd ht ha hok, deliver, hok, (Delivery.prepared_turn ht).1]
    exact .acknowledged _
  · rw [hnone (by rw [hf]; simp), deliver, hf]
    cases f with
    | cancelled => exact .givenUp (verdict?_wrapUp _ _ _ _) fun _ => hcalled rfl
    | payload | box | link => exact .givenUp (verdict?_wrapUp _ _ _ _) (by simp)

/-- A courier that closes its link goes on doing so until it has ended. -/
theorem verdict?_answer_closing {o : Operation} {r : Except PublishFault Unit}
    (hs : c.stage = .closing o r) :
    (c.answer (.link a)).next.verdict? = some r := by
  simp only [answer, hs]
  exact verdict?_closeWith _ _ _ _

/-- A delivery that is under way after an answer was so before. -/
theorem delivering_of_answer_link {d' : Delivery}
    (h : (c.answer (.link a)).next.stage = .delivering d') :
    ∃ d, c.stage = .delivering d ∧ d' = (d.answer a).next := by
  have hover {c' : Courier} {v : Except PublishFault Unit} (hv : c'.verdict? = some v)
      (hc : c'.stage = .delivering d') : ∃ d, c.stage = .delivering d ∧ d' = (d.answer a).next :=
    absurd hc ((of_verdict? hv).2.2 d')
  cases hs : c.stage with
  | delivering d =>
    rw [next_answer_delivering hs, deliver] at h
    cases hr : (d.answer a).next.result with
    | none =>
      rw [hr] at h
      exact ⟨d, rfl, (CourierStage.delivering.inj h).symm⟩
    | some v =>
      rw [hr] at h
      cases v with
      | ok u => exact absurd h (by simp [goto])
      | error f => cases f <;> exact hs ▸ hover (verdict?_wrapUp _ _ _ _) h
  | closing o r => exact hs ▸ hover (verdict?_answer_closing hs) h
  | ready | preparing | checking | handing | finished =>
    simp only [answer, hs] at h
    exact absurd h (by simp)

/-- A courier that is asked for something of its link delivers or closes it. -/
theorem stage_of_want_link {w : LinkWant} (h : c.want = .link w) :
    (∃ d, c.stage = .delivering d ∧ w = d.want) ∨ ∃ o r, c.stage = .closing o r ∧ w = o.want := by
  rw [want] at h
  cases hs : c.stage with
  | delivering d => rw [hs] at h; exact .inl ⟨d, rfl, (CourierWant.link.inj h).symm⟩
  | closing o r => rw [hs] at h; exact .inr ⟨o, r, rfl, (CourierWant.link.inj h).symm⟩
  | ready | preparing | checking | handing | finished => rw [hs] at h; exact absurd h (by simp)

/-- A batch gets its wire form, and its delivery begins. -/
theorem next_answer_nonce {l : Link} {b : Batch} (hs : c.stage = .preparing l b) (bs : Bytes) :
    (c.answer (.nonce bs)).next
      = { c with stage := .delivering (Delivery.start l (.ofBatch b c.box bs)).next } := by
  simp only [answer, hs, prepare, deliver, Delivery.next_start, goto]

/-- A batch counts as delivered when a reply to it has come. -/
theorem receive_of_checking {l : Link} {b : Batch} {w : LinkWant} (hc : c.Sound called)
    (hwant : c.want = .link w) (hfit : a.fits w = true) (ha : a.isCallOff = true → called = true)
    (h : (c.answer (.link a)).next.stage = .checking l b) :
    ∃ d limit reply, c.stage = .delivering d ∧ b = d.prepared.batch ∧ w = .call .receive limit ∧
      a = .outcome (.done reply) := by
  rcases stage_of_want_link hwant with ⟨d, hs, rfl⟩ | ⟨o, r, hs, rfl⟩
  · have hturn := linkTurn_delivering hs (hc d hs) hfit ha
    generalize hk : c.acknowledged? a = k at hturn
    generalize (c.answer (.link a)).next = c' at hturn h
    cases hturn with
    | ongoing hd hb => exact absurd h (by simp)
    | givenUp hv hr => exact absurd h ((stage_of_verdict? hv).2 l b)
    | acknowledged l' =>
      obtain ⟨-, hb⟩ := CourierStage.checking.inj h
      unfold acknowledged? at hk
      split at hk
      next d' limit reply hs' hw =>
        exact ⟨d, limit, reply, hs, hb.symm, CourierWant.link.inj (hwant.symm.trans hw), rfl⟩
      next => exact absurd hk (by simp)
  · exact absurd h ((stage_of_verdict? (verdict?_answer_closing hs)).2 l b)

/-- No batch is to get its wire form after an answer of the link. -/
theorem not_preparing_of_answer_link {l : Link} {b : Batch} {w : LinkWant} (hwant : c.want = .link w) :
    (c.answer (.link a)).next.stage ≠ .preparing l b := by
  rcases stage_of_want_link hwant with ⟨d, hs, -⟩ | ⟨o, r, hs, -⟩
  · rw [next_answer_delivering hs, deliver]
    cases hr : (d.answer a).next.result with
    | none => simp [goto]
    | some v =>
      cases v with
      | ok u => simp [goto]
      | error f => cases f <;> exact (stage_of_verdict? (verdict?_wrapUp _ _ _ _)).1 l b
  · exact (stage_of_verdict? (verdict?_answer_closing hs)).1 l b

/-! ### The keys -/

theorem box_wrapUp (c : Courier) (notices : List CourierNotice) (l : Link)
    (r : Except PublishFault Unit) :
    (c.wrapUp notices l r).next.box = c.box := by
  cases hl : l.session with
  | none => rw [next_wrapUp_of_none c notices r hl]
  | some s => rw [next_wrapUp_of_some c notices r hl]

theorem box_deliver (c : Courier) (notices : List CourierNotice) (d : Delivery) :
    (c.deliver notices d).next.box = c.box := by
  rw [deliver]
  cases hr : d.result with
  | none => rfl
  | some r =>
    cases r with
    | ok u => rfl
    | error f => cases f <;> exact box_wrapUp _ _ _ _

/-- A courier seals all batches with the same keys. -/
theorem box_answer (c : Courier) (a : CourierAnswer) : (c.answer a).next.box = c.box := by
  unfold answer
  split
  · split <;> rfl
  · exact box_wrapUp _ _ _ _
  · exact box_wrapUp _ _ _ _
  · exact box_deliver _ _ _
  · exact box_deliver _ _ _
  · rfl
  · rfl
  · rfl
  · rw [closeWith]
    split <;> rfl
  · rfl

/-! ### The queues answer -/

/-- What the queues lead to, with the courier and the queues after that.  A delivered batch is
`wanted` as long as delivered batches are recorded. -/
inductive QueueTurn (called : Bool) (c : Courier) (input output : Queue Batch) :
    Courier → Queue Batch → Queue Batch → Prop where
  | took {l : Link} {b : Batch} {rest : List Batch} (hc : called = false) (hs : c.stage = .ready l)
      (hi : input.items = b :: rest) (hb : b.isEmpty = false) :
      QueueTurn called c input output { c with stage := .preparing l b }
        { input with items := rest } output
  | tookEmpty {l : Link} {b : Batch} {rest : List Batch} (hc : called = false) (hs : c.stage = .ready l)
      (hi : input.items = b :: rest) (hb : b.isEmpty = true) :
      QueueTurn called c input output { c with stage := .checking l b }
        { input with items := rest } output
  | exhausted {l : Link} {c' : Courier} (hc : called = false) (hs : c.stage = .ready l)
      (hi : input.items = []) (hend : input.senders = 0) (hv : c'.verdict? = some (.ok ())) :
      QueueTurn called c input output c' input output
  | cancelled {l : Link} {c' : Courier} (hc : called = true) (hs : c.stage = .ready l)
      (hv : c'.verdict? = some (.ok ())) : QueueTurn called c input output c' input output
  | wanted {l : Link} {b : Batch} (hs : c.stage = .checking l b) (hr : output.receiving = true) :
      QueueTurn called c input output { c with stage := .handing l b } input output
  | unwanted {l : Link} {b : Batch} (hs : c.stage = .checking l b) (hr : output.receiving = false) :
      QueueTurn called c input output { c with stage := .ready l } input output
  | handed {l : Link} {b : Batch} (hc : called = false) (hs : c.stage = .handing l b)
      (hr : output.receiving = true) (hroom : output.items.length < output.capacity) :
      QueueTurn called c input output { c with stage := .ready l } input
        { output with items := output.items ++ [b] }
  | dropped {l : Link} {b : Batch} (hc : called = false) (hs : c.stage = .handing l b)
      (hr : output.receiving = false) :
      QueueTurn called c input output { c with stage := .ready l } input output
  | cancelledWaiting {l : Link} {b : Batch} (hc : called = true) (hs : c.stage = .handing l b) :
      QueueTurn called c input output { c with stage := .ready l } input output

variable {c' : Courier} {input input' output output' : Queue Batch} {x : CourierAnswer}

/-- A turn neither adds nor takes away an end of a queue. -/
theorem ends_queueTurn (h : QueueTurn called c input output c' input' output') :
    input'.senders = input.senders ∧ input'.receiving = input.receiving ∧
      output'.senders = output.senders := by
  cases h <;> exact ⟨rfl, rfl, rfl⟩

theorem queueTurn_ready {l : Link} (hs : c.stage = .ready l)
    (h : c.poll? called input output = some (x, input', output')) :
    QueueTurn called c input output (c.answer x).next input' output' := by
  simp only [poll?, want, hs, Option.map_eq_some_iff] at h
  obtain ⟨⟨t, q⟩, ht, h⟩ := h
  simp only [Prod.mk.injEq] at h
  obtain ⟨rfl, rfl, rfl⟩ := h
  cases Queue.yields_of_take? ht with
  | cancelled hc =>
    have hanswer : (c.answer (.took .cancelled)).next = (c.wrapUp [] l (.ok ())).next := by
      simp only [answer, hs]
    rw [hanswer]
    exact .cancelled hc hs (verdict?_wrapUp _ _ _ _)
  | @item b rest hc hi =>
    cases hb : b.isEmpty with
    | true =>
      have hanswer : (c.answer (.took (.item b))).next = { c with stage := .checking l b } := by
        simp only [answer, hs, hb, if_true, goto]
      rw [hanswer]
      exact .tookEmpty hc hs hi hb
    | false =>
      have hanswer : (c.answer (.took (.item b))).next = { c with stage := .preparing l b } := by
        simp only [answer, hs, hb, Bool.false_eq_true, if_false, goto]
      rw [hanswer]
      exact .took hc hs hi hb
  | closed hc hi hend =>
    have hanswer : (c.answer (.took .closed)).next = (c.wrapUp [.queueClosed] l (.ok ())).next := by
      simp only [answer, hs]
    rw [hanswer]
    exact .exhausted hc hs hi hend (verdict?_wrapUp _ _ _ _)

theorem queueTurn_checking {l : Link} {b : Batch} (hs : c.stage = .checking l b)
    (h : c.poll? called input output = some (x, input', output')) :
    QueueTurn called c input output (c.answer x).next input' output' := by
  simp only [poll?, want, hs, Option.some.injEq, Prod.mk.injEq] at h
  obtain ⟨rfl, rfl, rfl⟩ := h
  cases hr : output.receiving with
  | true =>
    have hanswer : (c.answer (.probed output.isClosed)).next = { c with stage := .handing l b } := by
      simp only [Queue.isClosed, hr, Bool.not_true, answer, hs, goto]
    rw [hanswer]
    exact .wanted hs hr
  | false =>
    have hanswer : (c.answer (.probed output.isClosed)).next = { c with stage := .ready l } := by
      simp only [Queue.isClosed, hr, Bool.not_false, answer, hs, goto]
    rw [hanswer]
    exact .unwanted hs hr

theorem queueTurn_handing {l : Link} {b : Batch} (hs : c.stage = .handing l b)
    (h : c.poll? called input output = some (x, input', output')) :
    QueueTurn called c input output (c.answer x).next input' output' := by
  simp only [poll?, want, hs, Option.map_eq_some_iff] at h
  obtain ⟨⟨t, q⟩, ht, h⟩ := h
  simp only [Prod.mk.injEq] at h
  obtain ⟨rfl, rfl, rfl⟩ := h
  have hanswer : (c.answer (.handed t)).next = { c with stage := .ready l } := by
    simp only [answer, hs, goto]
  rw [hanswer]
  cases Queue.admits_of_hand? ht with
  | cancelled hc => exact .cancelledWaiting hc hs
  | accepted hc hr hroom => exact .handed hc hs hr hroom
  | closed hc hr => exact .dropped hc hs hr

/-- **Every answer of the queues is one of the turns above.** -/
theorem queueTurn_of_poll? (h : c.poll? called input output = some (x, input', output')) :
    QueueTurn called c input output (c.answer x).next input' output' := by
  cases hs : c.stage with
  | ready l => exact queueTurn_ready hs h
  | checking l b => exact queueTurn_checking hs h
  | handing l b => exact queueTurn_handing hs h
  | preparing | delivering | closing | finished =>
    simp only [poll?, want, hs] at h
    exact absurd h (by simp)

end LogRelay.Courier
