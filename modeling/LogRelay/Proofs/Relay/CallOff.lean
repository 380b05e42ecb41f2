import LogRelay.Proofs.Relay.Outcome

/-!
# Calling off

When all is called off, no call of a link begins any more, and one that is under way is given up.  What is
left to a stage is then bounded, and it waits for nobody: every step of its own brings it nearer to its end,
and until it is there it always has one.

* `Move.stage?`, `Move.isPrompt`: the steps of a stage, and those that come without waiting;
* `Relay.remaining`, `Relay.socketsLeft`: how far a stage has to its end, and how many sockets can still be
  opened on the way;
* `Relay.WindsDown`, `windsDown_move?`: what a step can do when all was called off;
* `Relay.exists_prompt_move?`: a stage at work has a step that comes without waiting;
* `Watched.calls_off`: what is left of a relay when all was called off, and that every stage ends.
-/

namespace LogRelay

/-! ### Steps -/

/-- The stage that takes a step by itself. -/
def Move.stage? : Move → Option StageName
  | .stage s => some s
  | .nonce _ | .call | .link _ => some .courier
  | _ => none

/-- Whether an answer comes without waiting for a clock or for the other end of a socket. -/
def LinkAnswer.isPrompt : LinkAnswer → Bool
  | .outcome o => o.isCallOff
  | .rested whole => !whole
  | .socket _ | .picked _ | .closed => true

/-- Whether a step comes without waiting for a clock or for the other end of a socket. -/
def Move.isPrompt : Move → Bool
  | .link a => a.isPrompt
  | _ => true

/-- Whether a step opens a socket. -/
def Move.opensSocket : Move → Bool
  | .link (.socket _) => true
  | _ => false

/-! ### What is left to an operation -/

namespace Operation

variable {o o' : Operation} {a : LinkAnswer}

/-- How far an operation has to its end when all was called off. -/
def remaining (o : Operation) : Nat :=
  match o.stage with
  | .finished _ => 0
  | .releasing | .using _ => 1
  | .connecting _ _ => 2
  | .choosing _ => 3
  | .opening | .resting _ => 4
  | .ending _ => 5

/-- Whether an operation may open a socket when all was called off. -/
def mayOpen (o : Operation) : Bool :=
  match o.stage with
  | .opening | .ending _ => true
  | _ => false

theorem remaining_le (o : Operation) : o.remaining ≤ 5 := by
  rw [remaining]
  split <;> omega

theorem remaining_pos (h : o.result? = none) : 0 < o.remaining := by
  rw [result?] at h
  rw [remaining]
  cases hs : o.stage with
  | finished r => rw [hs] at h; exact absurd h (by simp)
  | opening | choosing | connecting | resting | releasing | «using» | ending => simp

/-- No outcome is both a failure and a call-off. -/
theorem not_isFailure {r : Outcome} (h : r.isCallOff = true) : r.isFailure ≠ true := by
  cases r <;> simp_all [Outcome.isCallOff, Outcome.isFailure]

/-- As long as calls are only called off, every answer brings an operation nearer to its end, and at most
one socket is opened on the way. -/
theorem remaining_turn (h : o.Turn a o') (ha : ∀ r, a = .outcome r → r.isCallOff = true) :
    o'.remaining < o.remaining ∧ o'.mayOpen.toNat + (Move.link a).opensSocket.toNat ≤ o.mayOpen.toNat := by
  cases h with
  | opened hs | refused hs | chosen hs | rested hs | restCancelled hs | released hs | renewed hs | ended hs
  | connectCancelled hs | useCancelled hs => simp [remaining, mayOpen, hs, Move.opensSocket]
  | connected | sent | received => exact absurd (ha _ rfl) (by simp [Outcome.isCallOff])
  | connectFailed _ hr | sendFailed _ _ _ hr | sendBroken _ _ _ hr | receiveFailed _ _ hr =>
    exact absurd hr (not_isFailure (ha _ rfl))

/-- An operation that a leg of an exchange needs has at most to open a socket. -/
theorem remaining_start (l : Link) (p : PreparedBatch) (leg : Leg) :
    (start l (Delivery.goal p leg)).next.remaining ≤ 4 := by
  cases hl : l.session with
  | none => rw [start_of_none hl]; cases leg <;> simp [remaining, stageWithout, Delivery.goal]
  | some s =>
    rw [start_of_some hl (Delivery.goal_ne p leg).2]
    cases leg <;> simp [remaining, stageWith, Delivery.goal]

/-- An operation that comes to a fault that passes has ended a session just before. -/
theorem ending_of_isPassing {f : LinkFault} (h : o.Turn a o') (hr : o'.result? = some (.error f))
    (hf : f.isPassing = true) : a = .closed ∧ ∃ next, o.stage = .ending next := by
  cases h with
  | ended hs => exact ⟨rfl, _, hs⟩
  | refused | released | useCancelled =>
    obtain rfl := Except.error.inj (Option.some.inj hr)
    exact absurd hf (by simp [LinkFault.isPassing])
  | sent | received => exact absurd (Option.some.inj hr) (by simp)
  | @connected c n hs frame =>
    cases hgoal : o.goal <;> simp [result?, stageWith, hgoal] at hr
  | opened | chosen | connectFailed | connectCancelled | rested | restCancelled | sendFailed | sendBroken
  | receiveFailed | renewed => simp [result?] at hr

/-- An operation that is under way wants something. -/
theorem want_ne_nothing (hu : o.result? = none) (hg : o.goal ≠ .ensure ∧ o.goal ≠ .close) :
    o.want ≠ .nothing := by
  rw [want]
  cases hs : o.stage with
  | finished v => rw [result?, hs] at hu; exact absurd hu (by simp)
  | «using» s =>
    cases hgoal : o.goal with
    | ensure => exact absurd hgoal hg.1
    | close => exact absurd hgoal hg.2
    | send | receive => simp [callOf]
  | opening | choosing | connecting | resting | releasing | ending => simp

end Operation

/-! ### What is left to a courier -/

namespace Delivery

variable {d d' : Delivery} {a : LinkAnswer}

/-- As long as calls are only called off, a delivery comes nearer to its end or is given up. -/
theorem remaining_goOn {called : Bool} (h : d.Turn a d') (hd : d.Sound called)
    (ha : ∀ r, a = .outcome r → r.isCallOff = true) (hcall : a.isCallOff = true → called = true) :
    (d'.result = none ∧ d'.operation.remaining < d.operation.remaining ∧
        d'.operation.mayOpen.toNat + (Move.link a).opensSocket.toNat ≤ d.operation.mayOpen.toNat) ∨
      ∃ f, d'.result = some (.error f) := by
  have hg : d.operation.goal ≠ .ensure ∧ d.operation.goal ≠ .close := by
    rw [hd.goal]
    exact goal_ne _ _
  -- no call succeeds any more, and so no operation does
  have hok {o : Operation} {reply : Bytes} (ho : d.operation.Turn a o) (hr : o.result? = some (.ok reply)) :
      False := by
    rcases Operation.result_turn ho hd.operation hg hcall hr with ⟨s, frame, _, -, rfl, -⟩ | ⟨f, hf, -⟩
    · exact absurd (ha _ rfl) (by simp [Outcome.isCallOff])
    · exact absurd hf (by simp)
  cases h with
  | ongoing ho hr => exact .inl ⟨hd.result, Operation.remaining_turn ho ha⟩
  | nonceOut ho hr => exact (hok ho hr).elim
  | ciphertextOut ho hr => exact (hok ho hr).elim
  | replied ho hr => exact (hok ho hr).elim
  | cancelled => exact .inr ⟨_, rfl⟩
  | stranded => exact .inr ⟨_, rfl⟩
  | @retried o f ho hr hf =>
    obtain ⟨rfl, next, hs⟩ := Operation.ending_of_isPassing ho hr hf
    have hstart := Operation.remaining_start o.link (begun d.prepared) .nonce
    refine .inl ⟨rfl, ?_, ?_⟩
    · show _ < d.operation.remaining
      simp only [Operation.remaining, hs]
      exact Nat.lt_succ_of_le hstart
    · simp only [Operation.mayOpen, hs, Move.opensSocket]
      exact Bool.toNat_le _

end Delivery

namespace Courier

variable {c c' : Courier} {a : LinkAnswer}

/-- How far a courier has to its end when all was called off. -/
def remaining (c : Courier) : Nat :=
  match c.stage with
  | .finished _ _ => 0
  | .closing _ _ => 1
  | .ready _ => 2
  | .handing _ _ => 3
  | .checking _ _ => 4
  | .delivering d => d.operation.remaining + 1
  | .preparing _ _ => 6

/-- How many sockets a courier can still open when all was called off. -/
def socketsLeft (c : Courier) : Nat :=
  match c.stage with
  | .preparing _ _ => 1
  | .delivering d => d.operation.mayOpen.toNat
  | _ => 0

theorem remaining_le (c : Courier) : c.remaining ≤ 6 := by
  rw [remaining]
  split
  case h_6 d _ => exact Nat.succ_le_succ d.operation.remaining_le
  all_goals omega

theorem socketsLeft_le (c : Courier) : c.socketsLeft ≤ 1 := by
  rw [socketsLeft]
  split
  · exact Nat.le_refl 1
  · exact Bool.toNat_le _
  · exact Nat.zero_le 1

/-- A courier that takes no more batches has at most to close its link. -/
theorem remaining_of_verdict? {r : Except PublishFault Unit} (h : c.verdict? = some r) :
    c.remaining ≤ 1 ∧ c.socketsLeft = 0 := by
  rw [verdict?] at h
  rw [remaining, socketsLeft]
  cases hs : c.stage with
  | closing | finished => simp
  | ready | preparing | delivering | checking | handing => rw [hs] at h; exact absurd h (by simp)

/-- At its queues a courier comes nearer to its end when all was called off. -/
theorem remaining_queueTurn {input input' output output' : Queue Batch}
    (h : c.QueueTurn true input output c' input' output') :
    c'.remaining < c.remaining ∧ c'.socketsLeft ≤ c.socketsLeft := by
  cases h with
  | took hc | tookEmpty hc | exhausted hc | handed hc | dropped hc => exact absurd hc (by simp)
  | cancelled hc hs hv =>
    obtain ⟨hle, hsockets⟩ := remaining_of_verdict? hv
    simp only [remaining, hs, hsockets] at hle ⊢
    omega
  | wanted hs | unwanted hs | cancelledWaiting _ hs => simp [remaining, socketsLeft, hs]

theorem remaining_nonce {l : Link} {b : Batch} (hs : c.stage = .preparing l b) (bs : Bytes) :
    (c.answer (.nonce bs)).next.remaining < c.remaining ∧
      (c.answer (.nonce bs)).next.socketsLeft ≤ c.socketsLeft := by
  have hstart := Operation.remaining_start l (Delivery.begun (.ofBatch b c.box bs)) .nonce
  rw [next_answer_nonce hs, Delivery.next_start]
  simp only [remaining, socketsLeft, hs]
  exact ⟨Nat.succ_lt_succ (Nat.lt_succ_of_le hstart), Bool.toNat_le _⟩

/-- A courier that closes its link has ended when the socket is closed. -/
theorem remaining_closing {o : Operation} {r : Except PublishFault Unit} (hs : c.stage = .closing o r)
    (hcl : c.Closes) (hfit : a.fits o.want = true) :
    (c.answer (.link a)).next.remaining < c.remaining ∧
      (c.answer (.link a)).next.socketsLeft + (Move.link a).opensSocket.toNat ≤ c.socketsLeft := by
  have hstage := hcl o r hs
  rw [Operation.want, hstage] at hfit
  obtain rfl := LinkAnswer.eq_closed_of_fits hfit
  have hnext : (c.answer (.link .closed)).next = { c with stage := .finished o.link r } := by
    simp only [answer, hs, Operation.answer, hstage, Operation.goto, closeWith, Operation.result?, goto]
  rw [hnext]
  simp [remaining, socketsLeft, hs, Move.opensSocket]

/-- A courier that has not ended wants something. -/
theorem want_ne_nothing (h : c.result? = none) : c.want ≠ .nothing := by
  rw [result?] at h
  rw [want]
  cases hs : c.stage with
  | finished l v => rw [hs] at h; exact absurd h (by simp)
  | ready | preparing | delivering | checking | handing | closing => simp

/-- A courier that turns to its link wants something of it. -/
theorem link_ne_nothing {called : Bool} {w : LinkWant} (hsound : c.Sound called) (hcl : c.Closes)
    (hw : c.want = .link w) : w ≠ .nothing := by
  rcases stage_of_want_link hw with ⟨d, hs, rfl⟩ | ⟨o, r, hs, rfl⟩
  · have hd := hsound d hs
    have hg := Delivery.goal_ne d.prepared d.leg
    rw [← hd.goal] at hg
    rw [Delivery.want, hd.result]
    exact Operation.want_ne_nothing hd.underway hg
  · simp [Operation.want, hcl o r hs]

theorem remaining_delivering {d : Delivery} (hs : c.stage = .delivering d) (hd : d.Sound true)
    (hfit : a.fits d.want = true) (ha : ∀ r, a = .outcome r → r.isCallOff = true) :
    (c.answer (.link a)).next.remaining < c.remaining ∧
      (c.answer (.link a)).next.socketsLeft + (Move.link a).opensSocket.toNat ≤ c.socketsLeft := by
  have ht := Delivery.turn_answer hd.result hfit
  rw [next_answer_delivering hs]
  generalize (d.answer a).notices = notices
  generalize (d.answer a).next = d' at ht ⊢
  rcases Delivery.remaining_goOn ht hd ha (fun _ => rfl) with ⟨hr, hlt, hsockets⟩ | ⟨f, hf⟩
  · rw [deliver, hr]
    simp only [goto, remaining, socketsLeft, hs]
    exact ⟨Nat.succ_lt_succ hlt, hsockets⟩
  · have hv : ∃ v, (c.deliver notices d').next.verdict? = some v := by
      rw [deliver, hf]
      cases f <;> exact ⟨_, verdict?_wrapUp _ _ _ _⟩
    obtain ⟨v, hv⟩ := hv
    obtain ⟨hle, hsockets⟩ := remaining_of_verdict? hv
    have hpos := Operation.remaining_pos hd.underway
    rw [Delivery.want, hd.result] at hfit
    have hopen := (Operation.remaining_turn (Operation.turn_answer hfit) ha).2
    simp only [remaining, socketsLeft, hs] at hle hsockets ⊢
    omega

end Courier

/-! ### What is left to a relay -/

/-- A batcher that has its turn when all was called off ends and hands nothing on. -/
theorem Batcher.isFinished_of_called {b : Batcher} {now : Instant} {input input' : Queue Event}
    {output output' : Queue Batch} {a : BatcherAnswer}
    (h : b.poll? true now input output = some (a, input', output')) :
    b.handsOn? true output = none ∧ (b.answer now a).2.isFinished = true := by
  cases hs : b.stage with
  | collecting =>
    simp only [poll?, want, hs, Queue.take?, if_true, Option.some.injEq, Prod.mk.injEq] at h
    obtain ⟨rfl, -, -⟩ := h
    refine ⟨by simp only [handsOn?, want, hs], ?_⟩
    simp only [answer, hs, finish, isFinished]
  | flushing batch after =>
    simp only [poll?, want, hs, Queue.hand?, if_true, Option.map_some, Option.some.injEq,
      Prod.mk.injEq] at h
    obtain ⟨rfl, -, -⟩ := h
    refine ⟨by simp only [handsOn?, want, hs, Queue.hand?, if_true], ?_⟩
    simp only [answer, hs, answerHanding, finish, isFinished]
  | finished =>
    simp only [poll?, want, hs] at h
    exact absurd h (by simp)

namespace Relay

variable {k : Capacities} {r r' : Relay} {m : Move} {notices : List RelayNotice} {s : StageName}

/-- How far a stage has to its end when all was called off. -/
def remaining (r : Relay) : StageName → Nat
  | .batcher => r.batcher.isRunning.toNat
  | .courier =>
    match r.courier with
    | .running c => c.remaining
    | _ => 0
  | .ledger => r.ledger.isRunning.toNat

/-- How many sockets can still be opened when all was called off. -/
def socketsLeft (r : Relay) : Nat :=
  match r.courier with
  | .running c => c.socketsLeft
  | _ => 0

theorem remaining_le (r : Relay) (s : StageName) : r.remaining s ≤ 6 := by
  cases s with
  | batcher => exact (Bool.toNat_le _).trans (by omega)
  | ledger => exact (Bool.toNat_le _).trans (by omega)
  | courier =>
    rw [remaining]
    split
    · exact Courier.remaining_le _
    · exact Nat.zero_le 6

theorem socketsLeft_le (r : Relay) : r.socketsLeft ≤ 1 := by
  rw [socketsLeft]
  split
  · exact Courier.socketsLeft_le _
  · exact Nat.zero_le 1

/-- What a step can do when all was called off: no call begins, nothing is batched or recorded, and the
stages come nearer to their ends. -/
structure WindsDown (r : Relay) (m : Move) (r' : Relay) : Prop where
  called : r'.called = true
  call : m ≠ .call
  batched : (r.passing m).batched = []
  recorded : (r.passing m).recorded = []
  positions : r'.positions = r.positions
  remaining : ∀ s, r'.remaining s + (if m.stage? = some s then 1 else 0) ≤ r.remaining s
  sockets : r'.socketsLeft + m.opensSocket.toNat ≤ r.socketsLeft

/-- A step that is no stage's own, after which no stage has further to go. -/
theorem WindsDown.frame (hm : m.stage? = none) (hcalled : r'.called = true)
    (hpassing : (r.passing m).batched = [] ∧ (r.passing m).recorded = []) (hp : r'.positions = r.positions)
    (hremaining : ∀ s, r'.remaining s ≤ r.remaining s) (hsockets : r'.socketsLeft ≤ r.socketsLeft) :
    WindsDown r m r' := by
  refine ⟨hcalled, ?_, hpassing.1, hpassing.2, hp, ?_, ?_⟩
  · rintro rfl
    exact absurd hm (by simp [Move.stage?])
  · intro s
    rw [hm, if_neg (by simp)]
    exact hremaining s
  · cases m with
    | link a => exact absurd hm (by simp [Move.stage?])
    | announce | addProducer | dropProducer | accept | stage | nonce | call | die | stop | supervise | pass =>
      exact hsockets

/-- A step of the courier, after which it is nearer to its end. -/
theorem WindsDown.setCourier {c c' : Courier} {batches delivered : Queue Batch} {calling : Bool}
    (hc : r.courier = .running c) (hm : m.stage? = some .courier) (hcall : m ≠ .call)
    (hcalled : r.called = true) (hpassing : (r.passing m).batched = [] ∧ (r.passing m).recorded = [])
    (hremaining : c'.remaining < c.remaining)
    (hsockets : c'.socketsLeft + m.opensSocket.toNat ≤ c.socketsLeft) :
    WindsDown r m ({ r with batches, delivered, calling }.setCourier c') := by
  have hr : r.remaining .courier = c.remaining ∧ r.socketsLeft = c.socketsLeft := by
    simp only [Relay.remaining, socketsLeft, hc, and_self]
  generalize hr' : ({ r with batches, delivered, calling }).setCourier c' = r'
  suffices h : (r'.called = true ∧ r'.positions = r.positions) ∧ r'.batcher = r.batcher ∧
      r'.ledger = r.ledger ∧ r'.remaining .courier ≤ c'.remaining ∧ r'.socketsLeft ≤ c'.socketsLeft by
    obtain ⟨⟨hcalled', hpositions⟩, hb, hl, hrem, hsock⟩ := h
    refine ⟨hcalled', hcall, hpassing.1, hpassing.2, hpositions, ?_, by omega⟩
    intro s
    rw [hm]
    cases s with
    | batcher => simp only [Relay.remaining, hb]; simp
    | ledger => simp only [Relay.remaining, hl]; simp
    | courier => rw [if_pos rfl]; omega
  subst hr'
  rcases setCourier_cases { r with batches, delivered, calling } c' with ⟨-, heq⟩ | ⟨-, heq⟩ | ⟨f, -, heq⟩
  · rw [heq]
    exact ⟨⟨hcalled, rfl⟩, rfl, rfl, Nat.le_refl _, Nat.le_refl _⟩
  · rw [heq]
    exact ⟨⟨hcalled, rfl⟩, rfl, rfl, Nat.zero_le _, Nat.zero_le _⟩
  · rw [heq]
    exact ⟨⟨rfl, rfl⟩, rfl, rfl, Nat.zero_le _, Nat.zero_le _⟩

/-- A call comes to nothing else than being called off. -/
theorem isCallOff_of_called {o : Outcome} (hc : r.called = true)
    (h : r.move? (.link (.outcome o)) = some (notices, r')) : o.isCallOff = true := by
  simp only [move?, linkMove?] at h
  split at h
  next c w _ _ =>
    by_cases hp : r.linkAnswerPossible w (.outcome o) = true
    · rw [linkAnswerPossible] at hp
      have hp := (Bool.and_eq_true_iff.1 hp).2
      cases o with
      | withheld | abandoned => rfl
      | done | failed | expired => exact absurd hp (by simp [outcomePossible, hc])
    · rw [if_neg hp] at h
      exact absurd h (by simp)
  next => exact absurd h (by simp)

theorem windsDown_batcher (hc : r.called = true) (h : r.move? (.stage .batcher) = some (notices, r')) :
    WindsDown r (.stage .batcher) r' := by
  simp only [move?, stageMove?] at h
  cases hb : r.batcher with
  | running b =>
    rw [hb] at h
    obtain ⟨⟨a, input, output⟩, hp, h⟩ := Option.map_eq_some_iff.1 h
    obtain ⟨-, rfl⟩ := Prod.mk.inj h
    rw [hc] at hp
    obtain ⟨hnone, hf⟩ := Batcher.isFinished_of_called hp
    rw [setBatcher_of_finished hf]
    refine ⟨hc, by simp, by simp [passing, hb, hc, hnone], by simp [passing, hb], rfl, ?_, Nat.le_refl _⟩
    intro s
    cases s with
    | batcher => simp [remaining, releaseBatcher, hb, Worker.isRunning, Move.stage?]
    | courier => simp [remaining, releaseBatcher, Move.stage?]
    | ledger => simp [remaining, releaseBatcher, Move.stage?]
  | ended | died => rw [hb] at h; exact absurd h (by simp)

theorem windsDown_ledger (hc : r.called = true) (h : r.move? (.stage .ledger) = some (notices, r')) :
    WindsDown r (.stage .ledger) r' := by
  obtain ⟨l, hl, -, ⟨b, rest, hcalled, -⟩ | ⟨-, hnone, rfl⟩⟩ := move?_ledger h
  · exact absurd (hcalled.symm.trans hc) (by simp)
  · refine ⟨hc, by simp, rfl, by simp [passing, hnone], rfl, ?_, Nat.le_refl _⟩
    intro s
    cases s with
    | ledger => simp [remaining, releaseLedger, hl, Worker.isRunning, Move.stage?]
    | batcher => simp [remaining, releaseLedger, Move.stage?]
    | courier => simp [remaining, releaseLedger, Move.stage?]

theorem windsDown_link {a : LinkAnswer} (hc : r.called = true)
    (hcourier : ∀ c, r.courier = .running c → c.Sound true ∧ c.Closes)
    (h : r.move? (.link a) = some (notices, r')) : WindsDown r (.link a) r' := by
  obtain ⟨c, want, hrun, hw, hfit, -, rfl⟩ := move?_link h
  have ha (o : Outcome) (ho : a = .outcome o) : o.isCallOff = true := isCallOff_of_called hc (ho ▸ h)
  obtain ⟨hsound, hcl⟩ := hcourier c hrun
  have hpassing : (r.passing (.link a)).batched = [] ∧ (r.passing (.link a)).recorded = [] := by
    simp only [passing, hrun, and_self]
  rcases Courier.stage_of_want_link hw with ⟨d, hs, rfl⟩ | ⟨o, v, hs, rfl⟩
  · obtain ⟨hremaining, hsockets⟩ := Courier.remaining_delivering hs (hsound d hs) hfit ha
    exact WindsDown.setCourier hrun rfl (by simp) hc hpassing hremaining hsockets
  · obtain ⟨hremaining, hsockets⟩ := Courier.remaining_closing hs hcl hfit
    exact WindsDown.setCourier hrun rfl (by simp) hc hpassing hremaining hsockets

/-- **When all was called off, every step winds the relay down.** -/
theorem windsDown_move? (hc : r.called = true)
    (hcourier : ∀ c, r.courier = .running c → c.Sound true ∧ c.Closes)
    (h : r.move? m = some (notices, r')) : WindsDown r m r' := by
  cases m with
  | stage s =>
    cases s with
    | batcher => exact windsDown_batcher hc h
    | ledger => exact windsDown_ledger hc h
    | courier =>
      obtain ⟨c, c', input, output, hrun, ht, rfl⟩ := move?_courier h
      rw [hc] at ht
      obtain ⟨hremaining, hsockets⟩ := Courier.remaining_queueTurn ht
      exact WindsDown.setCourier hrun rfl (by simp) hc ⟨rfl, rfl⟩ hremaining hsockets
  | nonce bs =>
    obtain ⟨c, l, b, hrun, hs, -, rfl⟩ := move?_nonce h
    obtain ⟨hremaining, hsockets⟩ := Courier.remaining_nonce hs bs
    exact WindsDown.setCourier hrun rfl (by simp) hc ⟨rfl, rfl⟩ hremaining hsockets
  | link a => exact windsDown_link hc hcourier h
  | call =>
    simp only [move?, callMove?, hc, Bool.true_or, if_true] at h
    split at h <;> exact absurd h (by simp)
  | die s reason =>
    rcases move?_die h with ⟨-, rfl⟩ | ⟨-, rfl⟩ | ⟨-, rfl⟩
    · refine .frame rfl hc ⟨rfl, rfl⟩ rfl ?_ (Nat.le_refl _)
      intro s
      cases s <;> simp [remaining, releaseBatcher, Worker.isRunning]
    · refine .frame rfl hc ⟨rfl, rfl⟩ rfl ?_ (Nat.zero_le _)
      intro s
      cases s <;> simp [remaining, releaseCourier]
    · refine .frame rfl hc ⟨rfl, rfl⟩ rfl ?_ (Nat.le_refl _)
      intro s
      cases s <;> simp [remaining, releaseLedger, Worker.isRunning]
  | announce | addProducer | dropProducer | accept | stop | supervise | pass =>
    have hkept := stagesKept_move? rfl h
    refine .frame rfl (hkept.called hc) ⟨rfl, rfl⟩ hkept.positions ?_ ?_
    · intro s
      cases s with
      | batcher => rw [remaining, hkept.batcher]; rfl
      | courier => rw [remaining, hkept.courier]; rfl
      | ledger => rw [remaining, hkept.ledger]; rfl
    · rw [socketsLeft, hkept.courier]
      rfl

/-! ### A step that needs no waiting -/

theorem exists_prompt_answer {w : LinkWant} (hw : w ≠ .nothing) (hc : r.called = true) :
    ∃ a : LinkAnswer, a.isPrompt = true ∧ r.linkAnswerPossible w a = true := by
  cases w with
  | socket => exact ⟨.socket (.ok ()), rfl, rfl⟩
  | pick among =>
    obtain ⟨a, ha⟩ := List.exists_mem_of_length_pos among.nonempty
    exact ⟨.picked a, rfl, by simp [linkAnswerPossible, LinkAnswer.fits, ha]⟩
  | call c limit =>
    -- a call does not begin, or is given up when it is under way
    cases hcalling : r.calling with
    | true =>
      exact ⟨.outcome .abandoned, rfl, by
        simp [linkAnswerPossible, LinkAnswer.fits, outcomePossible, hc, hcalling]⟩
    | false =>
      exact ⟨.outcome .withheld, rfl, by
        simp [linkAnswerPossible, LinkAnswer.fits, outcomePossible, hc, hcalling]⟩
  | rest d => exact ⟨.rested false, rfl, by simp [linkAnswerPossible, LinkAnswer.fits, hc]⟩
  | close => exact ⟨.closed, rfl, rfl⟩
  | nothing => exact absurd rfl hw

theorem isSome_move?_link {c : Courier} {w : LinkWant} {a : LinkAnswer} (hrun : r.courier = .running c)
    (hw : c.want = .link w) (h : r.linkAnswerPossible w a = true) : (r.move? (.link a)).isSome = true := by
  simp only [move?, linkMove?, hrun, linkWant?, hw, if_pos h, Option.isSome_some]

theorem isSome_move?_courier {c : Courier} (hrun : r.courier = .running c)
    (h : (c.poll? r.called r.batches r.delivered).isSome = true) :
    (r.move? (.stage .courier)).isSome = true := by
  simpa only [move?, stageMove?, hrun, Option.isSome_map] using h

theorem isSome_move?_nonce {c : Courier} (hrun : r.courier = .running c) (hw : c.want = .nonce) :
    (r.move? (.nonce (List.replicate nonceSize 0))).isSome = true := by
  simp [move?, nonceMove?, hrun, hw]

theorem exists_prompt_courier {c : Courier} (hc : r.called = true) (hrun : r.courier = .running c)
    (hsound : c.Sound true) (hresult : c.result? = none) (hcl : c.Closes) :
    ∃ m : Move, m.stage? = some .courier ∧ m.isPrompt = true ∧ (r.move? m).isSome = true := by
  cases hw : c.want with
  | batch =>
    refine ⟨.stage .courier, rfl, rfl, isSome_move?_courier hrun ?_⟩
    simp [Courier.poll?, hw, Queue.take?, hc]
  | probe =>
    refine ⟨.stage .courier, rfl, rfl, isSome_move?_courier hrun ?_⟩
    simp [Courier.poll?, hw]
  | room b =>
    refine ⟨.stage .courier, rfl, rfl, isSome_move?_courier hrun ?_⟩
    simp [Courier.poll?, hw, Queue.hand?, hc]
  | nonce => exact ⟨_, rfl, rfl, isSome_move?_nonce hrun hw⟩
  | link w =>
    obtain ⟨a, hprompt, ha⟩ := exists_prompt_answer (Courier.link_ne_nothing hsound hcl hw) hc
    exact ⟨.link a, rfl, hprompt, isSome_move?_link hrun hw ha⟩
  | nothing => exact absurd hw (Courier.want_ne_nothing hresult)

/-- **When all was called off, a stage at work always has a step that needs no waiting.** -/
theorem exists_prompt_move? (hc : r.called = true) (hw : r.Wired k)
    (hsound : ∀ c, r.courier = .running c → c.Sound true) (hs : r.isAtWork s = true) :
    ∃ m : Move, m.stage? = some s ∧ m.isPrompt = true ∧ (r.move? m).isSome = true := by
  cases s with
  | batcher =>
    obtain ⟨b, hb⟩ := Worker.of_isRunning hs
    have hf := hw.batcher b hb
    refine ⟨.stage .batcher, rfl, rfl, ?_⟩
    simp only [move?, stageMove?, hb, Option.isSome_map]
    cases hstage : b.stage with
    | collecting => simp [Batcher.poll?, Batcher.want, hstage, Queue.take?, hc]
    | flushing batch after => simp [Batcher.poll?, Batcher.want, hstage, Queue.hand?, hc]
    | finished => rw [Batcher.isFinished, hstage] at hf; exact absurd hf (by simp)
  | courier =>
    obtain ⟨c, hrun⟩ := Worker.of_isRunning hs
    obtain ⟨hresult, hcl⟩ := hw.courier c hrun
    exact exists_prompt_courier hc hrun (hsound c hrun) hresult hcl
  | ledger =>
    obtain ⟨l, hl⟩ := Worker.of_isRunning hs
    refine ⟨.stage .ledger, rfl, rfl, ?_⟩
    simp [move?, stageMove?, hl, Ledger.poll?, hw.ledger l hl, Queue.take?, hc]

end Relay

/-! ### Runs after all was called off -/

namespace Watched

variable {capacities k : Capacities} {settings : BatcherSettings} {keys : Keys} {l : Link} {now : Instant}
  {ms later : List Move} {w w' : Watched} {m : Move} {s : StageName}

theorem windsDown_of_move? (hc : w.relay.called = true) (hflow : w.Flow) (hw : w.relay.Wired k)
    (h : w.move? m = some w') :
    w.relay.WindsDown m w'.relay ∧ w'.passage.batched = w.passage.batched ∧
      w'.passage.recorded = w.passage.recorded := by
  obtain ⟨notices, hr, hp⟩ := exists_of_move? h
  have hdown := Relay.windsDown_move? hc
    (fun c hrun => ⟨hc ▸ hflow.carried.sound c hrun, (hw.courier c hrun).2⟩) hr
  refine ⟨hdown, ?_, ?_⟩
  · rw [hp, Passage.batched_append, hdown.batched, List.append_nil]
  · rw [hp, Passage.recorded_append, hdown.recorded, List.append_nil]

/-- What every step keeps, a run keeps; the steps of a stage and the sockets opened are counted down. -/
theorem windsDown_run? (hc : w.relay.called = true) (hflow : w.Flow) (hw : w.relay.Wired k)
    (h : w.run? later = some w') :
    w'.relay.called = true ∧ .call ∉ later ∧ w'.passage.batched = w.passage.batched ∧
      w'.passage.recorded = w.passage.recorded ∧ w'.relay.positions = w.relay.positions ∧
      w'.relay.socketsLeft + later.countP Move.opensSocket ≤ w.relay.socketsLeft ∧
      ∀ s, w'.relay.remaining s + later.countP (fun m => m.stage? = some s) ≤ w.relay.remaining s := by
  induction later generalizing w with
  | nil =>
    obtain rfl := Option.some.inj h
    exact ⟨hc, by simp, rfl, rfl, rfl, by simp, by simp⟩
  | cons m later ih =>
    obtain ⟨w₁, hm, h⟩ := Option.bind_eq_some_iff.1 h
    obtain ⟨notices, hr, -⟩ := exists_of_move? hm
    obtain ⟨hdown, hbatched, hrecorded⟩ := windsDown_of_move? hc hflow hw hm
    obtain ⟨hcalled, hcall, hbatched', hrecorded', hpositions, hsockets, hremaining⟩ :=
      ih hdown.called (flow_move? hflow hm) (Relay.wired_move? hw hr) h
    refine ⟨hcalled, ?_, hbatched'.trans hbatched, hrecorded'.trans hrecorded,
      hpositions.trans hdown.positions, ?_, ?_⟩
    · rw [List.mem_cons, not_or]
      exact ⟨hdown.call.symm, hcall⟩
    · have hfirst := hdown.sockets
      rw [List.countP_cons]
      cases hopen : m.opensSocket with
      | true => rw [hopen, Bool.toNat_true] at hfirst; simp only [if_true]; omega
      | false => rw [hopen, Bool.toNat_false] at hfirst; simp only [Bool.false_eq_true, if_false]; omega
    · intro s
      have hfirst := hdown.remaining s
      have hrest := hremaining s
      rw [List.countP_cons]
      simp only [decide_eq_true_eq]
      omega

/-- A stage comes to its end by steps of its own, and waits for none of them. -/
theorem exists_end (hc : w.relay.called = true) (hflow : w.Flow) (hw : w.relay.Wired k)
    (hs : w.relay.isAtWork s = true) :
    ∃ rest w', (∀ m ∈ rest, m.stage? = some s ∧ m.isPrompt = true) ∧ w.run? rest = some w' ∧
      w'.relay.hasEnded s = true := by
  induction hn : w.relay.remaining s using Nat.strong_induction_on generalizing w with
  | _ n ih =>
    obtain ⟨m, hown, hprompt, hsome⟩ := Relay.exists_prompt_move? hc hw
      (fun c hrun => hc ▸ hflow.carried.sound c hrun) hs
    obtain ⟨w₁, hm⟩ : ∃ w₁, w.move? m = some w₁ :=
      Option.isSome_iff_exists.1 (by rw [move?, Option.isSome_map]; exact hsome)
    obtain ⟨notices, hr, -⟩ := exists_of_move? hm
    obtain ⟨hdown, -, -⟩ := windsDown_of_move? hc hflow hw hm
    have hlt : w₁.relay.remaining s < n := by
      have hstep := hdown.remaining s
      rw [if_pos hown] at hstep
      omega
    cases hs₁ : w₁.relay.isAtWork s with
    | true =>
      obtain ⟨rest, w', hrest, hrun, hended⟩ := ih _ hlt hdown.called (flow_move? hflow hm)
        (Relay.wired_move? hw hr) hs₁ rfl
      refine ⟨m :: rest, w', ?_, ?_, hended⟩
      · intro x hx
        rcases List.mem_cons.1 hx with rfl | hx
        · exact ⟨hown, hprompt⟩
        · exact hrest x hx
      · exact (runSteps_cons hm).trans hrun
    | false =>
      refine ⟨[m], w₁, ?_, ?_, ?_⟩
      · intro x hx
        obtain rfl := List.mem_singleton.1 hx
        exact ⟨hown, hprompt⟩
      · exact runSteps_cons hm
      · -- a step of its own does not kill a stage
        have hdeath : ∀ t reason, m ≠ .die t reason := by
          rintro t reason rfl
          exact absurd hown (by simp [Move.stage?])
        refine (Relay.hasEnded_iff hs₁).2 ?_
        rw [Relay.death?_of_ne hr hdeath, Relay.death?_of_isAtWork hs]

/-- **Calling off ends everything.**  Whatever a relay was at when all was called off, whether from outside
or by a fault of its courier, and in whatever order it goes on: no call of a link begins, at most one
socket is opened, no batch goes into the queue of batches, and none is recorded.  Each stage takes at most
six more steps of its own, and as long as it is at work it comes to its end by such steps alone, without
waiting for a queue, a clock, a producer or the other end of a socket. -/
theorem calls_off (h : (start capacities settings keys l now).run? ms = some w)
    (hc : w.relay.called = true) (hlater : w.run? later = some w') :
    .call ∉ later ∧ later.countP Move.opensSocket ≤ 1 ∧ w'.passage.batched = w.passage.batched ∧
      w'.passage.recorded = w.passage.recorded ∧ w'.relay.positions = w.relay.positions ∧
      ∀ s, later.countP (fun m => m.stage? = some s) ≤ 6 ∧
        (w'.relay.isAtWork s = true →
          ∃ rest w'', (∀ m ∈ rest, m.stage? = some s ∧ m.isPrompt = true) ∧ w'.run? rest = some w'' ∧
            w''.relay.hasEnded s = true) := by
  have hflow := flow_run? h (flow_start capacities settings keys l now)
  have hw := wired_run? h (Relay.wired_start capacities settings keys l now)
  obtain ⟨hcalled, hcall, hbatched, hrecorded, hpositions, hsockets, hremaining⟩ :=
    windsDown_run? hc hflow hw hlater
  refine ⟨hcall, ?_, hbatched, hrecorded, hpositions, fun s => ⟨?_, ?_⟩⟩
  · have hle := w.relay.socketsLeft_le
    omega
  · have hle := w.relay.remaining_le s
    have hcount := hremaining s
    omega
  · exact exists_end hcalled (flow_run? hlater hflow) (wired_run? hlater hw)

/-- All is called off while the first frame of a batch is under way. -/
def calledOffUnderway : List Move :=
  [.announce] ++ spoolLine 1 ++ takeBatch ++ connect ++ [.call, .stop]

theorem calls_off_underway :
    ∃ w w', lineByLine.run? calledOffUnderway = some w ∧ w.relay.called = true ∧
      w.run? [.link (.outcome .abandoned)] = some w' ∧ w'.passage.batched = w.passage.batched ∧
      ∀ s, ∃ rest w'', (∀ m ∈ rest, m.stage? = some s ∧ m.isPrompt = true) ∧ w'.run? rest = some w'' ∧
        w''.relay.hasEnded s = true := by
  obtain ⟨w, hw⟩ : ∃ w, lineByLine.run? calledOffUnderway = some w := Option.isSome_iff_exists.1 rfl
  have hcalled : (lineByLine.run? calledOffUnderway).map (fun w => w.relay.called) = some true := rfl
  have hlater : ((lineByLine.run? calledOffUnderway).bind
      (fun w => w.run? [.link (.outcome .abandoned)])).isSome = true := rfl
  have hatWork (s : StageName) : ((lineByLine.run? calledOffUnderway).bind
      (fun w => w.run? [.link (.outcome .abandoned)])).map (fun w => w.relay.isAtWork s) = some true := by
    cases s <;> rfl
  rw [hw] at hcalled hlater hatWork
  obtain ⟨w', hw'⟩ := Option.isSome_iff_exists.1 hlater
  have hw' : w.run? [.link (.outcome .abandoned)] = some w' := hw'
  have hcalled : w.relay.called = true := Option.some.inj hcalled
  obtain ⟨-, -, hbatched, -, -, hends⟩ := calls_off hw hcalled hw'
  refine ⟨w, w', hw, hcalled, hw', hbatched, fun s => (hends s).2 ?_⟩
  have hatWork := hatWork s
  rw [Option.bind_some, hw'] at hatWork
  exact Option.some.inj hatWork

end Watched

end LogRelay
