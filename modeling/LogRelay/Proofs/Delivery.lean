import LogRelay.Courier.Delivery
import LogRelay.Proofs.Operation

/-!
# The turns of a delivery

A delivery goes on when the operation that is under way on its link does.  When that operation has
come to a result, the next leg of the exchange begins, or the exchange begins anew, or the delivery
has ended.

* `movesOf`: the moves from state to state that are told of;
* `Delivery.Advance`, `advance_answer`: how a delivery goes on when its operation has, and what it tells;
* `Delivery.Turn`, `turn_answer`: all that an answer of the wanted kind can lead to;
* `Delivery.Sound`, `sound_start`, `sound_turn`: the operation under way is the one that the leg
  needs, and it is sound.
-/

namespace LogRelay

theorem LinkFault.isPassing_or (f : LinkFault) :
    f = .cancelled ∨ (∃ cause, f = .socket cause) ∨ f.isPassing = true := by
  cases f with
  | cancelled => exact .inl rfl
  | socket cause => exact .inr (.inl ⟨cause, rfl⟩)
  | timeout | transport | interrupted => exact .inr (.inr rfl)

/-- A move from one state to another. -/
abbrev StateMove := DeliveryState × DeliveryState

/-- The move that a notice tells of. -/
def CourierNotice.move? : CourierNotice → Option StateMove
  | moved _ old new => some (old, new)
  | _ => none

/-- The moves that are told of, the first one first. -/
def movesOf (notices : List CourierNotice) : List StateMove :=
  notices.filterMap CourierNotice.move?

theorem movesOf_append (before after : List CourierNotice) :
    movesOf (before ++ after) = movesOf before ++ movesOf after := List.filterMap_append

/-- The link tells of no moves. -/
theorem movesOf_links (notices : List LinkNotice) : movesOf (notices.map .link) = [] := by
  refine List.filterMap_eq_nil_iff.2 fun n hn => ?_
  obtain ⟨n', -, rfl⟩ := List.mem_map.1 hn
  rfl

theorem movesOf_retrying (sequence : Nat) (attempts : UInt32) (cause : LinkFault)
    (notices : List CourierNotice) :
    movesOf (.retrying sequence attempts cause :: notices) = movesOf notices := rfl

namespace Delivery

/-- The batch as it is while an exchange that has just begun is under way. -/
def begun (p : PreparedBatch) : PreparedBatch := { p with attempts := p.attempts + 1, state := .sending }

theorem next_start (l : Link) (p : PreparedBatch) :
    (start l p).next = ⟨begun p, (Operation.start l (goal p .nonce)).next, .nonce, none⟩ := rfl

theorem movesOf_start (l : Link) (p : PreparedBatch) :
    movesOf (start l p).notices = [(p.state, .sending)] := by
  simp only [start, beginLeg, PreparedBatch.moveTo, movesOf_append, movesOf_links, List.append_nil]
  rfl

/-- What an answer of the wanted kind leads to, while there is no result.  A delivery is `stranded`
when there is no socket to be had, and `retried` after any other fault. -/
inductive Turn (d : Delivery) (a : LinkAnswer) : Delivery → Prop where
  | ongoing {o : Operation} (ho : d.operation.Turn a o) (hr : o.result? = none) :
      Turn d a { d with operation := o }
  | nonceOut {o : Operation} {reply : Bytes} (ho : d.operation.Turn a o)
      (hr : o.result? = some (.ok reply)) (hl : d.leg = .nonce) :
      Turn d a
        ⟨d.prepared, (Operation.start o.link (goal d.prepared .ciphertext)).next, .ciphertext, none⟩
  | ciphertextOut {o : Operation} {reply : Bytes} (ho : d.operation.Turn a o)
      (hr : o.result? = some (.ok reply)) (hl : d.leg = .ciphertext) :
      Turn d a
        ⟨{ d.prepared with state := .awaitingAck },
          (Operation.start o.link (goal d.prepared .reply)).next,
          .reply, none⟩
  | replied {o : Operation} {reply : Bytes} (ho : d.operation.Turn a o)
      (hr : o.result? = some (.ok reply)) (hl : d.leg = .reply) :
      Turn d a ⟨{ d.prepared with state := .delivered }, o, .reply, some (.ok ())⟩
  | cancelled {o : Operation} (ho : d.operation.Turn a o) (hr : o.result? = some (.error .cancelled)) :
      Turn d a { d with operation := o, result := some (.error .cancelled) }
  | stranded {o : Operation} {cause : SocketFault} (ho : d.operation.Turn a o)
      (hr : o.result? = some (.error (.socket cause))) :
      Turn d a { d with operation := o, result := some (.error (.link (.socket cause))) }
  | retried {o : Operation} {f : LinkFault} (ho : d.operation.Turn a o)
      (hr : o.result? = some (.error f)) (hf : f.isPassing = true) :
      Turn d a ⟨begun d.prepared, (Operation.start o.link (goal d.prepared .nonce)).next, .nonce, none⟩

variable {d d' : Delivery} {a : LinkAnswer}

/-- A delivery goes on when its operation has, with the moves from state to state that it tells of, and
with what the exchange has come to if it has ended. -/
inductive Advance (d : Delivery) (o : Operation) :
    Delivery → List StateMove → Option LinkResult → Prop where
  | ongoing (hr : o.result? = none) : Advance d o { d with operation := o } [] none
  | nonceOut {reply : Bytes} (hr : o.result? = some (.ok reply)) (hl : d.leg = .nonce) :
      Advance d o
        ⟨d.prepared, (Operation.start o.link (goal d.prepared .ciphertext)).next, .ciphertext, none⟩ [] none
  | ciphertextOut {reply : Bytes} (hr : o.result? = some (.ok reply)) (hl : d.leg = .ciphertext) :
      Advance d o
        ⟨{ d.prepared with state := .awaitingAck }, (Operation.start o.link (goal d.prepared .reply)).next,
          .reply, none⟩ [(d.prepared.state, .awaitingAck)] none
  | replied {reply : Bytes} (hr : o.result? = some (.ok reply)) (hl : d.leg = .reply) :
      Advance d o ⟨{ d.prepared with state := .delivered }, o, .reply, some (.ok ())⟩
        [(d.prepared.state, .delivered)] (some (.ok reply))
  | cancelled (hr : o.result? = some (.error .cancelled)) :
      Advance d o { d with operation := o, result := some (.error .cancelled) } [] (some (.error .cancelled))
  | stranded {cause : SocketFault} (hr : o.result? = some (.error (.socket cause))) :
      Advance d o { d with operation := o, result := some (.error (.link (.socket cause))) } []
        (some (.error (.socket cause)))
  | retried {f : LinkFault} (hr : o.result? = some (.error f)) (hf : f.isPassing = true) :
      Advance d o ⟨begun d.prepared, (Operation.start o.link (goal d.prepared .nonce)).next, .nonce, none⟩
        [(d.prepared.state, .sending)] (some (.error f))

/-- What an exchange has come to when its operation has come so far. -/
def ending? (d : Delivery) (o : Operation) : Option LinkResult :=
  match o.result?, d.leg with
  | some (.ok reply), .reply => some (.ok reply)
  | some (.error f), _ => some (.error f)
  | _, _ => none

/-- **An answer leads a delivery on in one of the ways above.** -/
theorem advance_answer (hd : d.result = none) :
    d.Advance (d.operation.answer a).next (d.answer a).next (movesOf (d.answer a).notices)
      (d.ending? (d.operation.answer a).next) := by
  cases hr : (d.operation.answer a).next.result? with
  | none =>
    simp only [answer, hd, hr, ending?, movesOf_links]
    simpa only [hd] using Advance.ongoing (d := d) hr
  | some r =>
    simp only [answer, hd, hr, ending?, movesOf_append, movesOf_links, List.nil_append]
    cases r with
    | ok reply =>
      cases hl : d.leg with
      | nonce =>
        simp only [proceed, beginLeg, movesOf_links]
        exact .nonceOut hr hl
      | ciphertext =>
        simp only [proceed, beginLeg, PreparedBatch.moveTo, movesOf_append, movesOf_links, List.append_nil]
        exact .ciphertextOut hr hl
      | reply =>
        simp only [proceed]
        exact .replied hr hl
    | error f =>
      rcases f.isPassing_or with rfl | ⟨cause, rfl⟩ | hf
      · simp only [proceed, finish]
        exact .cancelled hr
      · simp only [proceed, finish]
        exact .stranded hr
      · cases f with
        | cancelled | socket => exact absurd hf (by simp [LinkFault.isPassing])
        | timeout | transport | interrupted =>
          simp only [proceed, movesOf_retrying, movesOf_start]
          exact .retried hr rfl

theorem Advance.turn {o : Operation} {moves : List StateMove} {ending : Option LinkResult}
    (h : d.Advance o d' moves ending) (ho : d.operation.Turn a o) : d.Turn a d' := by
  cases h with
  | ongoing hr => exact .ongoing ho hr
  | nonceOut hr hl => exact .nonceOut ho hr hl
  | ciphertextOut hr hl => exact .ciphertextOut ho hr hl
  | replied hr hl => exact .replied ho hr hl
  | cancelled hr => exact .cancelled ho hr
  | stranded hr => exact .stranded ho hr
  | retried hr hf => exact .retried ho hr hf

/-- **An answer of the wanted kind is one of the turns above.** -/
theorem turn_answer (hd : d.result = none) (h : a.fits d.want = true) : d.Turn a (d.answer a).next := by
  rw [want, hd] at h
  exact (advance_answer hd).turn (Operation.turn_answer h)

/-! ### Deliveries under way -/

/-- A delivery under way: its operation is the one that the leg needs, and is under way and sound. -/
structure Sound (called : Bool) (d : Delivery) : Prop where
  result : d.result = none
  goal : d.operation.goal = goal d.prepared d.leg
  operation : d.operation.Sound called
  underway : d.operation.result? = none

theorem goal_ne (p : PreparedBatch) (leg : Leg) :
    Delivery.goal p leg ≠ .ensure ∧ Delivery.goal p leg ≠ .close := by
  cases leg <;> exact ⟨by simp [Delivery.goal], by simp [Delivery.goal]⟩

theorem result?_start (l : Link) (p : PreparedBatch) (leg : Leg) :
    (Operation.start l (Delivery.goal p leg)).next.result? = none := by
  cases hl : l.session with
  | none => rw [Operation.start_of_none hl]; cases leg <;> rfl
  | some s => rw [Operation.start_of_some hl (goal_ne p leg).2]; cases leg <;> rfl

theorem goal_start (l : Link) (p : PreparedBatch) (leg : Leg) :
    (Operation.start l (Delivery.goal p leg)).next.goal = Delivery.goal p leg := by
  cases hl : l.session with
  | none => rw [Operation.start_of_none hl]
  | some s => rw [Operation.start_of_some hl (goal_ne p leg).2]

/-- A leg that has just begun is sound. -/
theorem sound_leg (called : Bool) (l : Link) (p : PreparedBatch) (leg : Leg) :
    Sound called ⟨p, (Operation.start l (Delivery.goal p leg)).next, leg, none⟩ :=
  ⟨rfl, goal_start l p leg, Operation.sound_start l (goal_ne p leg).2, result?_start l p leg⟩

theorem sound_start (called : Bool) (l : Link) (p : PreparedBatch) : (start l p).next.Sound called :=
  sound_leg called l (begun p) .nonce

theorem Sound.mono {called called' : Bool} (h : d.Sound called) (hc : called = true → called' = true) :
    d.Sound called' :=
  ⟨h.result, h.goal, h.operation.mono hc, h.underway⟩

theorem prepared_turn (h : d.Turn a d') :
    d'.prepared.batch = d.prepared.batch ∧ d'.prepared.nonce = d.prepared.nonce ∧
      d'.prepared.ciphertext = d.prepared.ciphertext := by
  cases h <;> exact ⟨rfl, rfl, rfl⟩

/-- A delivery stays sound until it has a result: it has been called off, there is no socket to be
had, or the reply has come. -/
theorem sound_turn {called : Bool} (h : d.Turn a d') (hd : d.Sound called)
    (ha : a.isCallOff = true → called = true) :
    d'.Sound called ∨ d'.result = some (.ok ()) ∨
      ∃ f, d'.result = some (.error f) ∧ (f = .cancelled → called = true) := by
  have hg : d.operation.goal ≠ .ensure ∧ d.operation.goal ≠ .close := by
    rw [hd.goal]
    exact goal_ne _ _
  cases h with
  | ongoing ho hr =>
    refine .inl ⟨hd.result, ?_, Operation.sound_turn ho hg.2 ha, hr⟩
    show _ = Delivery.goal d.prepared d.leg
    rw [Operation.goal_turn ho, hd.goal]
  | nonceOut ho hr hl => exact .inl (sound_leg called _ d.prepared .ciphertext)
  | ciphertextOut ho hr hl => exact .inl (sound_leg called _ { d.prepared with state := .awaitingAck } .reply)
  | replied ho hr hl => exact .inr (.inl rfl)
  | cancelled ho hr =>
    refine .inr (.inr ⟨_, rfl, ?_⟩)
    intro _
    rcases Operation.result_turn ho hd.operation hg ha hr with
      ⟨s, frame, reply, hs, -, hok⟩ | ⟨f, hf, hcalled⟩
    · exact absurd hok (by simp)
    · exact hcalled (Except.error.inj hf).symm
  | stranded ho hr => exact .inr (.inr ⟨_, rfl, by simp⟩)
  | retried ho hr hf => exact .inl (sound_leg called _ (begun d.prepared) .nonce)

end Delivery

end LogRelay
