import LogRelay.Proofs.Delivery
import LogRelay.Proofs.Wire.Steps

/-!
# The exchanges of a delivery

A `Consignment` is a batch that is being delivered on a link in any state, with the sockets that it uses,
in whatever way they answer, and whenever all is called off.  One exchange follows the other until a reply
has come; an exchange is given up for good only when all is called off, or when there is no socket to be had.

* `Consignment.move?`, `Consignment.run?`: steps and runs of a delivery;
* `DeliveryState.Step`, `DeliveryState.Passes`: the states that a delivery passes through;
* `Entry.Offers`: the frames that are offered;
* `Consignment.Abides`, `abides_link`: what holds at any time;
* `Consignment.Underway`, `underway_link`: what holds besides as long as there is no result;
* `Consignment.Law`, `law_link`: what holds when there is one;
* `Consignment.delivers`: what a delivery comes to.
-/

namespace LogRelay

/-! ### States -/

/-- The moves of a delivery from state to state. -/
inductive DeliveryState.Step : DeliveryState → DeliveryState → Prop where
  | begin : Step .prepared .sending
  | again : Step .sending .sending
  | sent : Step .sending .awaitingAck
  | unanswered : Step .awaitingAck .sending
  | done : Step .awaitingAck .delivered

/-- Moves of which each begins where the last has ended. -/
inductive DeliveryState.Passes (s : DeliveryState) : List StateMove → DeliveryState → Prop where
  | nil : Passes s [] s
  | concat {moves : List StateMove} {t u : DeliveryState} (h : Passes s moves t)
      (hstep : t.Step u) : Passes s (moves ++ [(t, u)]) u

theorem DeliveryState.Passes.append {s t u : DeliveryState} {moves moves' : List StateMove}
    (h : s.Passes moves t) (h' : t.Passes moves' u) : s.Passes (moves ++ moves') u := by
  induction h' with
  | nil => rwa [List.append_nil]
  | concat _ hstep ih =>
    rw [← List.append_assoc]
    exact ih.concat hstep

theorem DeliveryState.Step.passes {s t : DeliveryState} (h : s.Step t) : s.Passes [(s, t)] t :=
  Passes.nil.concat h

/-- The state of a batch during a leg of the exchange. -/
def Leg.state : Leg → DeliveryState
  | nonce | ciphertext => .sending
  | reply => .awaitingAck

/-- A batch that has its wire form and is not delivered yet. -/
def PreparedBatch.IsOpen (p : PreparedBatch) : Prop :=
  p.state = .prepared ∨ p.state = .sending ∨ p.state = .awaitingAck

theorem PreparedBatch.IsOpen.step {p : PreparedBatch} (h : p.IsOpen) : p.state.Step .sending := by
  rcases h with h | h | h
  · exact h ▸ .begin
  · exact h ▸ .again
  · exact h ▸ .unanswered

theorem Leg.step (leg : Leg) : leg.state.Step .sending := by
  cases leg with
  | nonce | ciphertext => exact .again
  | reply => exact .unanswered

/-- How many exchanges begin with such moves. -/
def beginnings (moves : List StateMove) : Nat := moves.countP fun m => m.2 = .sending

/-! ### How a delivery advances -/

namespace Delivery

variable {d d' : Delivery} {o : Operation} {moves : List StateMove} {ending : Option LinkResult}

theorem Advance.passes (h : d.Advance o d' moves ending) (hd : d.prepared.state = d.leg.state) :
    d.prepared.state.Passes moves d'.prepared.state := by
  cases h with
  | ongoing | nonceOut | cancelled | stranded => exact .nil
  | ciphertextOut hr hl =>
    rw [hl] at hd
    exact (hd ▸ .sent : d.prepared.state.Step .awaitingAck).passes
  | replied hr hl =>
    rw [hl] at hd
    exact (hd ▸ .done : d.prepared.state.Step .delivered).passes
  | retried hr hf => exact (hd ▸ d.leg.step : d.prepared.state.Step .sending).passes

/-- Every beginning of an exchange is counted. -/
theorem Advance.attempts (h : d.Advance o d' moves ending) :
    d'.prepared.attempts = d.prepared.attempts + .ofNat (beginnings moves) := by
  cases h with
  | ongoing | nonceOut | ciphertextOut | replied | cancelled | stranded => exact (UInt32.add_zero _).symm
  | retried => rfl

/-- As long as there is no result, an exchange that has ended has failed for the time being, and another one
begins. -/
theorem Advance.underway (h : d.Advance o d' moves ending) (hd : d.prepared.state = d.leg.state)
    (hd' : d'.result = none) :
    d'.prepared.state = d'.leg.state ∧ beginnings moves = ending.toList.length ∧
      ∀ r ∈ ending, ∃ f, r = .error f ∧ f.isPassing = true := by
  cases h with
  | ongoing => exact ⟨hd, rfl, by simp⟩
  | nonceOut hr hl =>
    rw [hl] at hd
    exact ⟨hd, rfl, by simp⟩
  | ciphertextOut => exact ⟨rfl, rfl, by simp⟩
  | replied | cancelled | stranded => exact absurd hd' (by simp)
  | @retried f hr hf => exact ⟨rfl, rfl, fun r hr => ⟨f, (Option.some.inj hr).symm, hf⟩⟩

/-- When there is a result, no other exchange begins. -/
theorem Advance.ended (h : d.Advance o d' moves ending) (hd : d.result = none) (hd' : d'.result ≠ none) :
    beginnings moves = 0 ∧ ∃ r, ending = some r := by
  cases h with
  | ongoing => exact absurd hd hd'
  | nonceOut | ciphertextOut | retried => exact absurd rfl hd'
  | replied | cancelled | stranded => exact ⟨rfl, _, rfl⟩

/-- A delivery that has come to a result has a reply, or was called off, or has no socket. -/
theorem Advance.result_cases {r : Except PublishFault Unit} (h : d.Advance o d' moves ending)
    (hd : d.result = none) (hr : d'.result = some r) :
    (r = .ok () ∧ d.leg = .reply ∧ d'.prepared.state = .delivered ∧ ∃ x, o.result? = some (.ok x)) ∨
      d'.prepared.state = d.prepared.state ∧
        (r = .error .cancelled ∨
          ∃ cause, r = .error (.link (.socket cause)) ∧ o.result? = some (.error (.socket cause))) := by
  cases h with
  | ongoing => exact absurd (hd.symm.trans hr) (by simp)
  | nonceOut | ciphertextOut | retried => exact absurd hr (by simp)
  | @replied x ho hl => exact .inl ⟨(Option.some.inj hr).symm, hl, rfl, x, ho⟩
  | cancelled => exact .inr ⟨rfl, .inl (Option.some.inj hr).symm⟩
  | @stranded cause ho => exact .inr ⟨rfl, .inr ⟨cause, (Option.some.inj hr).symm, ho⟩⟩

/-- A reply ends a delivery. -/
theorem Advance.result_of_reply {x : Bytes} (h : d.Advance o d' moves ending)
    (hr : o.result? = some (.ok x)) (hl : d.leg = .reply) : d'.result = some (.ok ()) := by
  cases h with
  | replied => rfl
  | ongoing hr' | cancelled hr' | stranded hr' | retried hr' => exact absurd (hr.symm.trans hr') (by simp)
  | nonceOut _ hl' | ciphertextOut _ hl' => exact absurd (hl.symm.trans hl') (by simp)

/-- A delivery without a socket has come to its end. -/
theorem Advance.result_of_refusal {cause : SocketFault} (h : d.Advance o d' moves ending)
    (hr : o.result? = some (.error (.socket cause))) : d'.result ≠ none := by
  cases h with
  | cancelled | stranded => simp
  | ongoing hr' | nonceOut hr' | ciphertextOut hr' | replied hr' => exact absurd (hr.symm.trans hr') (by simp)
  | retried hr' hf =>
    obtain rfl := Except.error.inj (Option.some.inj (hr.symm.trans hr'))
    exact absurd hf (by simp [LinkFault.isPassing])

end Delivery

/-! ### A delivery and its sockets -/

/-- A frame is offered only if it is one of the two of a batch: the nonce with more to come, or the
ciphertext as the last one. -/
def Entry.Offers (p : PreparedBatch) : Entry → Prop
  | .call (.send frame more) _ => frame = p.nonce ∧ more = true ∨ frame = p.ciphertext ∧ more = false
  | _ => True

/-- A delivery, the sockets of its link, and what is known of it. -/
structure Consignment where
  delivery : Delivery
  wire : Wire
  told : List CourierNotice
  /-- What the exchanges that have ended have come to. -/
  ended : List LinkResult := []
  /-- Why sockets could not be opened. -/
  refused : List SocketFault := []

namespace Consignment

/-- The delivery of a batch begins on a link in any state. -/
def start (l : Link) (p : PreparedBatch) : Consignment where
  delivery := (Delivery.start l p).next
  wire := .ofLink l
  told := (Delivery.start l p).notices

/-- What comes of a step, if it is possible. -/
def move? (c : Consignment) (m : Wire.Step) : Option Consignment :=
  (c.wire.step? c.delivery.want m).map fun wire =>
    match m with
    | .link a =>
      let t := c.delivery.answer a
      { delivery := t.next
        wire
        told := c.told ++ t.notices
        ended := c.ended ++ (c.delivery.ending? (c.delivery.operation.answer a).next).toList
        refused := c.refused ++ a.refusal?.toList }
    | .callOff | .call => { c with wire }

/-- What comes of several steps, if each is possible. -/
abbrev run? : Consignment → List Wire.Step → Option Consignment := runSteps move?

/-- The number of exchanges that have begun. -/
def begun (c : Consignment) : Nat := beginnings (movesOf c.told)

variable {l : Link} {p : PreparedBatch} {c c' : Consignment} {m : Wire.Step} {ms : List Wire.Step}
  {a : LinkAnswer} {r : Except PublishFault Unit}

/-- What holds of a delivery at any time. -/
structure Abides (p : PreparedBatch) (c : Consignment) : Prop where
  /-- The batch and its wire form stay as they are. -/
  batch : c.delivery.prepared.batch = p.batch
  nonce : c.delivery.prepared.nonce = p.nonce
  ciphertext : c.delivery.prepared.ciphertext = p.ciphertext
  /-- Nothing but the wire form is ever offered. -/
  offers : ∀ log ∈ c.wire.sockets, ∀ e ∈ log, e.Offers p
  /-- The moves from state to state follow each other. -/
  passes : p.state.Passes (movesOf c.told) c.delivery.prepared.state
  /-- Every exchange is counted. -/
  attempts : c.delivery.prepared.attempts = p.attempts + .ofNat c.begun

/-- What holds besides as long as there is no result. -/
structure Underway (p : PreparedBatch) (c : Consignment) : Prop extends Abides p c where
  sound : c.delivery.Sound c.wire.called
  awaits : c.wire.Awaits c.delivery.want
  state : c.delivery.prepared.state = c.delivery.leg.state
  /-- All exchanges but the last have failed for the time being. -/
  begun : c.begun = c.ended.length + 1
  failed : ∀ r ∈ c.ended, ∃ f, r = .error f ∧ f.isPassing = true
  unanswered : ∀ log ∈ c.wire.sockets, ∀ x, .call .receive (some (.done x)) ∉ log
  seated : c.wire.sockets ≠ [] ∨ c.delivery.operation.stage = .opening

/-- What holds of a delivery that has come to a result. -/
structure Law (p : PreparedBatch) (c : Consignment) (r : Except PublishFault Unit) : Prop extends
    Abides p c where
  /-- All exchanges but the last have failed for the time being. -/
  begun : c.begun = c.ended.length
  failed : ∀ r ∈ c.ended.dropLast, ∃ f, r = .error f ∧ f.isPassing = true
  /-- It succeeds if and only if a reply has come, and this was the last that was asked of a socket. -/
  answered : r = .ok () → ∃ log earlier x,
    c.wire.sockets = log :: earlier ∧ log.getLast? = some (.call .receive (some (.done x)))
  replied : ∀ log ∈ c.wire.sockets, ∀ x, .call .receive (some (.done x)) ∈ log → r = .ok ()
  delivered : r = .ok () → c.delivery.prepared.state = .delivered
  /-- Otherwise the batch is still to be delivered. -/
  undelivered : r ≠ .ok () → c.delivery.prepared.IsOpen
  cancelled : r = .error .cancelled → c.wire.called = true
  refused : ∀ f, r = .error f → f = .cancelled ∨ ∃ cause ∈ c.refused, f = .link (.socket cause)

theorem underway_start (hp : p.IsOpen) : (start l p).Underway p := by
  have hmoves : movesOf (start l p).told = [(p.state, .sending)] := Delivery.movesOf_start l p
  have hbegun : (start l p).begun = 1 := by rw [Consignment.begun, hmoves]; rfl
  have hnone : ∀ log ∈ (start l p).wire.sockets, log = [] := by
    intro log hlog
    simp only [start, Wire.ofLink] at hlog
    split at hlog
    · exact List.mem_singleton.1 hlog
    · exact absurd hlog List.not_mem_nil
  constructor
  case toAbides =>
    constructor
    case batch | nonce | ciphertext => rfl
    case offers =>
      intro log hlog e he
      exact absurd he (by simp [hnone log hlog])
    case passes => exact hmoves ▸ hp.step.passes
    case attempts => rw [hbegun]; rfl
  case sound => exact Delivery.sound_start _ l p
  case awaits => exact Wire.awaits_ofLink l
  case state => rfl
  case begun => rw [hbegun]; rfl
  case failed => simp [start]
  case unanswered =>
    intro log hlog x
    simp [hnone log hlog]
  case seated =>
    cases hl : l.session with
    | none =>
      refine .inr ?_
      show (Operation.start l (Delivery.goal p .nonce)).next.stage = .opening
      rw [Operation.start_of_none hl]
      rfl
    | some s => exact .inl (by simp [start, Wire.ofLink, Link.isConnected, hl])

/-! ### One step -/

/-- The delivery goes on when its operation is answered. -/
theorem of_link (hm : c.move? (.link a) = some c') :
    c.wire.possible c.delivery.want a = true ∧ c'.wire = c.wire.note 0 a ∧
      c'.delivery = (c.delivery.answer a).next ∧
      c'.told = c.told ++ (c.delivery.answer a).notices ∧
      c'.ended = c.ended ++ (c.delivery.ending? (c.delivery.operation.answer a).next).toList ∧
      c'.refused = c.refused ++ a.refusal?.toList := by
  obtain ⟨wire, hw, rfl⟩ := Option.map_eq_some_iff.1 hm
  obtain ⟨hp, rfl⟩ := Wire.of_link_step? hw
  exact ⟨hp, rfl, rfl, rfl, rfl, rfl⟩

theorem begun_link (hm : c.move? (.link a) = some c') :
    c'.begun = c.begun + beginnings (movesOf (c.delivery.answer a).notices) := by
  obtain ⟨-, -, -, htold, -, -⟩ := of_link hm
  rw [begun, htold, movesOf_append, beginnings, List.countP_append]
  rfl

theorem Underway.want_eq (h : c.Underway p) : c.delivery.want = c.delivery.operation.want := by
  rw [Delivery.want, h.sound.result]

theorem Underway.turn (h : c.Underway p) (hp : c.wire.possible c.delivery.want a = true) :
    c.delivery.operation.Turn a (c.delivery.operation.answer a).next :=
  Operation.turn_answer (h.want_eq ▸ Wire.fits_of_possible hp)

/-- The call that is under way offers nothing but a frame of the batch. -/
theorem Underway.offers_under (h : c.Underway p) {k : Call} (hu : c.wire.under = some k)
    (o : Option Outcome) : (Entry.call k o).Offers p := by
  obtain ⟨limit, hwant⟩ := h.awaits k hu
  rw [h.want_eq, Operation.want] at hwant
  cases hs : c.delivery.operation.stage with
  | connecting e n =>
    rw [hs] at hwant
    obtain ⟨rfl, -⟩ := LinkWant.call.inj hwant
    trivial
  | «using» s =>
    rw [hs, h.sound.goal] at hwant
    cases hl : c.delivery.leg with
    | nonce =>
      rw [hl] at hwant
      obtain ⟨rfl, -⟩ := LinkWant.call.inj hwant
      exact .inl ⟨h.nonce, rfl⟩
    | ciphertext =>
      rw [hl] at hwant
      obtain ⟨rfl, -⟩ := LinkWant.call.inj hwant
      exact .inr ⟨h.ciphertext, rfl⟩
    | reply =>
      rw [hl] at hwant
      obtain ⟨rfl, -⟩ := LinkWant.call.inj hwant
      trivial
  | opening | choosing | resting | releasing | ending | finished =>
    rw [hs] at hwant
    exact absurd hwant (by simp)

theorem abides_link (h : c.Underway p) (hm : c.move? (.link a) = some c') : c'.Abides p := by
  obtain ⟨hp, hwire, hdelivery, htold, -, -⟩ := of_link hm
  have hadvance := Delivery.advance_answer (a := a) h.sound.result
  obtain ⟨hbatch, hnonce, hciphertext⟩ := Delivery.prepared_turn (hadvance.turn (h.turn hp))
  constructor
  case batch => rw [hdelivery, hbatch, h.batch]
  case nonce => rw [hdelivery, hnonce, h.nonce]
  case ciphertext => rw [hdelivery, hciphertext, h.ciphertext]
  case offers =>
    intro log hlog e he
    rw [hwire] at hlog
    rcases Wire.mem_note hlog he with ⟨log', hlog', he'⟩ | rfl | ⟨k, o, rfl, hu, rfl⟩
    · exact h.offers log' hlog' e he'
    · trivial
    · exact h.offers_under hu _
  case passes =>
    rw [htold, movesOf_append, hdelivery]
    exact h.passes.append (hadvance.passes h.state)
  case attempts =>
    rw [begun_link hm, hdelivery, hadvance.attempts, h.attempts, UInt32.ofNat_add, UInt32.add_assoc]

/-- A call that succeeds in waiting for a reply ends the delivery. -/
theorem Underway.result_of_received (h : c.Underway p) {x : Bytes} (hu : c.wire.under = some .receive)
    (hp : c.wire.possible c.delivery.want (.outcome (.done x)) = true) :
    (c.delivery.answer (.outcome (.done x))).next.result = some (.ok ()) := by
  obtain ⟨limit, hwant⟩ := h.awaits _ hu
  rw [h.want_eq] at hwant
  obtain ⟨s, hs, hg⟩ := Operation.using_of_want_receive hwant
  have hleg : c.delivery.leg = .reply := by
    have hgoal := h.sound.goal.symm.trans hg
    cases hl : c.delivery.leg with
    | reply => rfl
    | nonce | ciphertext => exact absurd hgoal (by simp [hl, Delivery.goal])
  have hr := Operation.result?_of_received hs hg (h.turn hp)
  exact (Delivery.advance_answer h.sound.result).result_of_reply hr hleg

/-- A reply comes only at the end. -/
theorem Underway.result_of_mem (h : c.Underway p) (hm : c.move? (.link a) = some c') {log : List Entry}
    {x : Bytes} (hlog : log ∈ c'.wire.sockets) (hx : .call .receive (some (.done x)) ∈ log) :
    c'.delivery.result = some (.ok ()) := by
  obtain ⟨hp, hwire, hdelivery, -, -, -⟩ := of_link hm
  rw [hwire] at hlog
  rcases Wire.mem_note hlog hx with ⟨log', hlog', he'⟩ | hno | ⟨k, o, rfl, hu, he⟩
  · exact absurd he' (h.unanswered log' hlog' x)
  · exact absurd hno (by simp)
  · obtain ⟨rfl, ho⟩ := Entry.call.inj he
    obtain rfl := Option.some.inj ho
    rw [hdelivery]
    exact h.result_of_received hu hp

/-- Whoever has waited for more than a socket has one, unless there was none to be had. -/
theorem Underway.seated_link (h : c.Underway p) (hp : c.wire.possible c.delivery.want a = true) :
    (c.wire.note 0 a).sockets ≠ [] ∨
      ∃ cause, (c.delivery.operation.answer a).next.result? = some (.error (.socket cause)) := by
  rcases h.seated with hsockets | hs
  · exact .inl (Wire.sockets_note_ne hsockets)
  · have ht := h.turn hp
    generalize (c.delivery.operation.answer a).next = o' at ht
    cases ht with
    | opened => exact .inl (List.cons_ne_nil _ _)
    | refused _ cause => exact .inr ⟨cause, rfl⟩
    | chosen hs' | connected hs' | connectFailed hs' | connectCancelled hs' | rested hs' | restCancelled hs'
    | released hs' | sent hs' | sendFailed hs' | sendBroken hs' | received hs' | receiveFailed hs'
    | useCancelled hs' | renewed hs' | ended hs' => exact absurd (hs.symm.trans hs') (by simp)

theorem underway_link (h : c.Underway p) (hm : c.move? (.link a) = some c')
    (hnone : c'.delivery.result = none) : c'.Underway p := by
  obtain ⟨hp, hwire, hdelivery, -, hended, -⟩ := of_link hm
  have hadvance := Delivery.advance_answer (a := a) h.sound.result
  have hcalled : a.isCallOff = true → c.wire.called = true := Wire.called_of_isCallOff hp
  rw [hdelivery] at hnone
  obtain ⟨hstate, hbegun, hfailed⟩ := hadvance.underway h.state hnone
  constructor
  case toAbides => exact abides_link h hm
  case sound =>
    rw [hdelivery, hwire, Wire.called_note]
    rcases Delivery.sound_turn (hadvance.turn (h.turn hp)) h.sound hcalled with hsound | hok | ⟨f, hf, -⟩
    · exact hsound
    · exact absurd (hnone.symm.trans hok) (by simp)
    · exact absurd (hnone.symm.trans hf) (by simp)
  case awaits =>
    rw [hwire]
    intro k hk
    exact absurd hk (by simp [Wire.under_note hp h.awaits])
  case state => rw [hdelivery, hstate]
  case begun =>
    rw [begun_link hm, hbegun, h.begun, hended, List.length_append]
    omega
  case failed =>
    intro r hr
    rw [hended] at hr
    rcases List.mem_append.1 hr with hr | hr
    · exact h.failed r hr
    · exact hfailed r (Option.mem_toList.1 hr)
  case unanswered =>
    intro log hlog x hx
    have hresult := h.result_of_mem hm hlog hx
    rw [hdelivery, hnone] at hresult
    exact absurd hresult (by simp)
  case seated =>
    rcases h.seated_link hp with hsockets | ⟨cause, hcause⟩
    · exact .inl (hwire ▸ hsockets)
    · exact absurd hnone (hadvance.result_of_refusal hcause)

/-- The operation that has succeeded in waiting for a reply has its outcome entered last. -/
theorem Underway.answered (h : c.Underway p) (hp : c.wire.possible c.delivery.want a = true)
    (hleg : c.delivery.leg = .reply) {x : Bytes}
    (hr : (c.delivery.operation.answer a).next.result? = some (.ok x)) :
    ∃ log earlier y, (c.wire.note 0 a).sockets = log :: earlier ∧
      log.getLast? = some (.call .receive (some (.done y))) := by
  have hgoal : c.delivery.operation.goal = .receive := by rw [h.sound.goal, hleg]; rfl
  have hneeds : c.delivery.operation.goal ≠ .ensure ∧ c.delivery.operation.goal ≠ .close := by
    simp [hgoal]
  rcases Operation.result_turn (h.turn hp) h.sound.operation hneeds (Wire.called_of_isCallOff hp) hr with
    ⟨s, frame, reply, hs, rfl, -⟩ | ⟨f, hf, -⟩
  · obtain ⟨limit, hwant⟩ := Operation.want_of_using (c := .receive) (by rw [hgoal]; rfl) hs
    obtain ⟨log, earlier, hsockets⟩ : ∃ log earlier, c.wire.sockets = log :: earlier := by
      rcases h.seated with hsockets | hopening
      · exact List.exists_cons_of_ne_nil hsockets
      · exact absurd (hs.symm.trans hopening) (by simp)
    have hnote := Wire.sockets_of_outcome 0 h.awaits (h.want_eq.trans hwant) hp (by simp) hsockets
    exact ⟨_, earlier, frame, hnote, by simp⟩
  · exact absurd hf (by simp)

theorem law_link (h : c.Underway p) (hm : c.move? (.link a) = some c') (hr : c'.delivery.result = some r) :
    c'.Law p r := by
  obtain ⟨hp, hwire, hdelivery, -, hended, hrefused⟩ := of_link hm
  have hadvance := Delivery.advance_answer (a := a) h.sound.result
  rw [hdelivery] at hr
  obtain ⟨hbegun, r', hending⟩ := hadvance.ended h.sound.result (by simp [hr])
  have hended : c'.ended = c.ended ++ [r'] := by rw [hended, hending]; rfl
  have hcases := hadvance.result_cases h.sound.result hr
  constructor
  case toAbides => exact abides_link h hm
  case begun => rw [begun_link hm, hbegun, h.begun, hended, List.length_append]; rfl
  case failed =>
    rw [hended, List.dropLast_concat]
    exact h.failed
  case answered =>
    rintro rfl
    rcases hcases with ⟨-, hleg, -, x, hx⟩ | ⟨-, hno | ⟨cause, hno, -⟩⟩
    · exact hwire ▸ h.answered hp hleg hx
    · exact absurd hno (by simp)
    · exact absurd hno (by simp)
  case replied =>
    intro log hlog x hx
    have hresult := h.result_of_mem hm hlog hx
    rw [hdelivery, hr] at hresult
    exact Option.some.inj hresult
  case delivered =>
    rintro rfl
    rcases hcases with ⟨-, -, hstate, -⟩ | ⟨-, hno | ⟨cause, hno, -⟩⟩
    · rw [hdelivery, hstate]
    · exact absurd hno (by simp)
    · exact absurd hno (by simp)
  case undelivered =>
    intro hne
    rcases hcases with ⟨hok, -⟩ | ⟨hstate, -⟩
    · exact absurd hok hne
    · rw [PreparedBatch.IsOpen, hdelivery, hstate, h.state]
      cases c.delivery.leg with
      | nonce | ciphertext => exact .inr (.inl rfl)
      | reply => exact .inr (.inr rfl)
  case cancelled =>
    rintro rfl
    have hcalled : a.isCallOff = true → c.wire.called = true := Wire.called_of_isCallOff hp
    rw [hwire, Wire.called_note]
    rcases Delivery.sound_turn (hadvance.turn (h.turn hp)) h.sound hcalled with hsound | hok | ⟨f, hf, hc⟩
    · exact absurd (hr.symm.trans hsound.result) (by simp)
    · exact absurd (hr.symm.trans hok) (by simp)
    · exact hc (by simpa using (hr.symm.trans hf).symm)
  case refused =>
    rintro f rfl
    rcases hcases with ⟨hno, -⟩ | ⟨-, hf | ⟨cause, hf, hcause⟩⟩
    · exact absurd hno (by simp)
    · exact .inl (Except.error.inj hf)
    · have ha := Operation.refusal_turn (h.turn hp) h.sound.operation hcause
      refine .inr ⟨cause, ?_, Except.error.inj hf⟩
      rw [hrefused, ha]
      exact List.mem_append_right _ (List.mem_singleton_self cause)

/-! ### A whole run -/

/-- A delivery is under way, or has come to a result. -/
def Stands (p : PreparedBatch) (c : Consignment) : Prop :=
  c.Underway p ∨ ∃ r, c.delivery.result = some r ∧ c.Law p r

/-- Nothing changes as long as nothing is answered. -/
theorem Stands.congr (h : c.Stands p) {wire : Wire} (hs : wire.sockets = c.wire.sockets)
    (hc : c.wire.called = true → wire.called = true)
    (ha : c.wire.Awaits c.delivery.want → wire.Awaits c.delivery.want) : Stands p { c with wire } := by
  rcases h with h | ⟨r, hr, h⟩
  · have habides : Abides p { c with wire } := { h.toAbides with offers := hs.symm ▸ h.offers }
    exact .inl { habides with
      sound := h.sound.mono hc
      awaits := ha h.awaits
      state := h.state
      begun := h.begun
      failed := h.failed
      unanswered := hs.symm ▸ h.unanswered
      seated := h.seated.imp_left fun hsockets => hs.symm ▸ hsockets }
  · have habides : Abides p { c with wire } := { h.toAbides with offers := hs.symm ▸ h.offers }
    exact .inr ⟨r, hr, { habides with
      begun := h.begun
      failed := h.failed
      answered := hs.symm ▸ h.answered
      replied := hs.symm ▸ h.replied
      delivered := h.delivered
      undelivered := h.undelivered
      cancelled := fun hr => hc (h.cancelled hr)
      refused := h.refused }⟩

theorem stands_move? (h : c.Stands p) (hm : c.move? m = some c') : c'.Stands p := by
  cases m with
  | link a =>
    rcases h with h | ⟨r, hr, -⟩
    · cases hr : c'.delivery.result with
      | none => exact .inl (underway_link h hm hr)
      | some r => exact .inr ⟨r, hr, law_link h hm hr⟩
    · obtain ⟨hp, -⟩ := of_link hm
      have hfits := Wire.fits_of_possible hp
      rw [Delivery.want, hr] at hfits
      exact absurd hfits (by cases a <;> simp [LinkAnswer.fits])
  | callOff =>
    obtain ⟨wire, hw, rfl⟩ := Option.map_eq_some_iff.1 hm
    obtain ⟨hsockets, hcalled⟩ := Wire.sockets_step? hw (by simp)
    exact h.congr hsockets hcalled fun ha => Wire.awaits_callOff ha hw
  | call =>
    obtain ⟨wire, hw, rfl⟩ := Option.map_eq_some_iff.1 hm
    obtain ⟨hsockets, hcalled⟩ := Wire.sockets_step? hw (by simp)
    exact h.congr hsockets hcalled fun _ => Wire.awaits_call hw

/-- **What a delivery comes to**, on a link in any state, in whatever way its sockets answer, and whenever all
is called off.  The attempts of a batch count the exchanges, as long as the count has room for them. -/
theorem delivers (hp : p.IsOpen) (h : (start l p).run? ms = some c) (hr : c.delivery.result = some r) :
    c.Law p r ∧ (p.attempts.toNat + c.begun < UInt32.size →
      c.delivery.prepared.attempts.toNat = p.attempts.toNat + c.begun) := by
  have hstands : c.Stands p :=
    runSteps_induction (fun _ _ _ hc hm => stands_move? hc hm) h (.inl (underway_start hp))
  rcases hstands with hunderway | ⟨r', hr', hlaw⟩
  · exact absurd (hunderway.sound.result.symm.trans hr) (by simp)
  · obtain rfl := Option.some.inj (hr.symm.trans hr')
    refine ⟨hlaw, fun hroom => ?_⟩
    rw [hlaw.attempts, UInt32.toNat_add, UInt32.toNat_ofNat', Nat.add_mod_mod, Nat.mod_eq_of_lt hroom]

/-- A link with one collector that is not connected. -/
def unconnected : Link where
  servers := ⟨[⟨"tcp://collector:5005"⟩], Nat.zero_lt_one⟩
  limits := ⟨.ofMillis 1000, .ofMillis 1000, .ofMillis 1000⟩
  reconnect := default

/-- A batch with its wire form. -/
def small : PreparedBatch := ⟨⟨0, []⟩, [1], [2], .prepared, 0⟩

/-- Both frames are sent on a new socket, and the reply is awaited. -/
def sending : List Wire.Step :=
  [.link (.socket (.ok ())), .link (.picked ⟨"tcp://collector:5005"⟩), .call, .link (.outcome (.done [])),
    .call, .link (.outcome (.done [])), .call, .link (.outcome (.done [])), .call]

/-- The first reply does not come in time, the second one does. -/
def repliedAtLast : List Wire.Step :=
  sending ++ [.link (.outcome .expired), .link .closed] ++ sending ++ [.link (.outcome (.done [3]))]

theorem delivers_repliedAtLast : ∃ c, (start unconnected small).run? repliedAtLast = some c ∧
    c.delivery.result = some (.ok ()) ∧ c.delivery.prepared.state = .delivered ∧
    c.delivery.prepared.attempts.toNat = 2 ∧
    ∀ log ∈ c.wire.sockets, ∀ e ∈ log, e.Offers small := by
  obtain ⟨c, hc⟩ : ∃ c, (start unconnected small).run? repliedAtLast = some c :=
    Option.isSome_iff_exists.1 rfl
  have hresult : ((start unconnected small).run? repliedAtLast).map (fun c => c.delivery.result)
      = some (some (.ok ())) := rfl
  have hbegun : ((start unconnected small).run? repliedAtLast).map begun = some 2 := rfl
  rw [hc] at hresult hbegun
  have hresult := Option.some.inj hresult
  have hbegun : c.begun = 2 := Option.some.inj hbegun
  obtain ⟨hlaw, hattempts⟩ := delivers (.inl rfl) hc hresult
  rw [hbegun] at hattempts
  exact ⟨c, hc, hresult, hlaw.delivered rfl, hattempts (by decide), hlaw.offers⟩

end Consignment

end LogRelay
