import LogRelay.Proofs.Delivery.Exchanges
import Mathlib.Algebra.GroupWithZero.Nat

/-!
# A batch that is delivered again

A `Circulation` is a batch with its wire form that is delivered more than once, each time on a link in any
state.  A delivery may be called off, or dropped before it has come to a result; then the batch stays as it is,
and the next delivery begins with it.

A delivery does not look at the state of its batch.  A batch that is delivered therefore stays delivered only
until it is delivered again.

* `Consignment.HasSent`, `Consignment.Sent`: the frames that a delivery has sent before it waits for a reply;
* `Consignment.Fares`, `fares_move?`: a delivery fares as if its batch had never been offered before;
* `Circulation.move?`, `Circulation.run?`: one delivery after the other;
* `Circulation.Made`, `made_run?`: each delivery has begun with the batch as the one before has left it;
* `Circulation.run?_goesWell`, `delivered_twice`: whatever has become of a batch, it can be delivered, and sent,
  once more;
* `Circulation.Lasting`, `stays_delivered`: **how long a batch is delivered, and what follows**.
-/

namespace LogRelay

/-! ### Entries are kept -/

namespace Wire

variable {w : Wire} {log : List Entry} {e : Entry}

theorem exists_mem_record (new : Entry) (hlog : log ∈ w.sockets) (he : e ∈ log) :
    ∃ log' ∈ (w.record new).sockets, e ∈ log' := by
  rw [record]
  cases hw : w.sockets with
  | nil => exact absurd (hw ▸ hlog) List.not_mem_nil
  | cons latest rest =>
    rcases List.mem_cons.1 (hw ▸ hlog) with rfl | hrest
    · exact ⟨_, List.mem_cons_self, List.mem_append_left _ he⟩
    · exact ⟨log, List.mem_cons_of_mem _ hrest, he⟩

/-- No answer takes an entry away. -/
theorem exists_mem_note (place : Nat) (a : LinkAnswer) (hlog : log ∈ w.sockets) (he : e ∈ log) :
    ∃ log' ∈ (w.note place a).sockets, e ∈ log' := by
  cases a with
  | picked | rested => exact ⟨log, hlog, he⟩
  | closed => exact exists_mem_record _ hlog he
  | socket r =>
    cases r with
    | error cause => exact ⟨log, hlog, he⟩
    | ok u => exact ⟨log, List.mem_cons_of_mem _ hlog, he⟩
  | outcome o =>
    cases hu : w.under with
    | none =>
      rw [note_outcome_of_none hu]
      exact ⟨log, hlog, he⟩
    | some c =>
      simp only [note, hu]
      exact exists_mem_record _ ((sockets_tally w place c o).1 ▸ hlog) he

end Wire

/-- The batch as if it had never been offered. -/
def PreparedBatch.unoffered (p : PreparedBatch) : PreparedBatch := { p with state := .prepared }

namespace Consignment

variable {l : Link} {p q : PreparedBatch} {c c' : Consignment} {m : Wire.Step} {a : LinkAnswer}
  {frame : Bytes} {more : Bool}

/-! ### What is sent before a reply is awaited -/

/-- A socket has taken a frame. -/
def HasSent (c : Consignment) (frame : Bytes) (more : Bool) : Prop :=
  ∃ log ∈ c.wire.sockets, ∃ x, .call (.send frame more) (some (.done x)) ∈ log

/-- The frames that have been sent when an exchange has come so far.  A delivery succeeds by a reply. -/
structure Sent (p : PreparedBatch) (c : Consignment) : Prop where
  nonce : c.delivery.leg ≠ .nonce → c.HasSent p.nonce true
  ciphertext : c.delivery.leg = .reply → c.HasSent p.ciphertext false
  replied : c.delivery.result = some (.ok ()) → c.delivery.leg = .reply

theorem HasSent.congr (h : c.HasSent frame more) (hs : c'.wire.sockets = c.wire.sockets) :
    c'.HasSent frame more := by
  rw [HasSent, hs]
  exact h

/-- What was told plays no part, nor what was called off. -/
theorem Sent.congr (h : c.Sent p) (hd : c'.delivery = c.delivery)
    (hs : c'.wire.sockets = c.wire.sockets) : c'.Sent p where
  nonce hl := (h.nonce (hd ▸ hl)).congr hs
  ciphertext hl := (h.ciphertext (hd ▸ hl)).congr hs
  replied hr := hd ▸ h.replied (hd ▸ hr)

theorem sent_start (l : Link) (p : PreparedBatch) : (start l p).Sent p where
  nonce h := absurd rfl h
  ciphertext h := absurd h (by simp [start, Delivery.next_start])
  replied h := absurd h (by simp [start, Delivery.next_start])

theorem HasSent.link (h : c.HasSent frame more) (hm : c.move? (.link a) = some c') :
    c'.HasSent frame more := by
  obtain ⟨log, hlog, x, hx⟩ := h
  obtain ⟨-, hwire, -⟩ := of_link hm
  obtain ⟨log', hlog', hx'⟩ := Wire.exists_mem_note 0 a hlog hx
  exact ⟨log', hwire ▸ hlog', x, hx'⟩

/-- The operation that sends a frame succeeds only when a socket takes it. -/
theorem Underway.hasSent (h : c.Underway p) (hm : c.move? (.link a) = some c') {reply : Bytes}
    (hg : c.delivery.operation.goal = .send frame more)
    (hr : (c.delivery.operation.answer a).next.result? = some (.ok reply)) : c'.HasSent frame more := by
  obtain ⟨hp, hwire, -⟩ := of_link hm
  have hgoal : c.delivery.operation.goal ≠ .ensure ∧ c.delivery.operation.goal ≠ .close := by simp [hg]
  rcases Operation.result_turn (h.turn hp) h.sound.operation hgoal (Wire.called_of_isCallOff hp) hr with
    ⟨s, x, -, hs, rfl, -⟩ | ⟨f, hf, -⟩
  · obtain ⟨limit, hwant⟩ := Operation.want_of_using (c := .send frame more) (by rw [hg]; rfl) hs
    have hunder : c.wire.under = some (.send frame more) := by
      obtain ⟨-, k, hu⟩ := Wire.of_possible_done hp
      rw [hu, Wire.Awaits.under_eq (h.want_eq.trans hwant ▸ h.awaits) hu]
    have hseated : c.wire.sockets ≠ [] :=
      h.seated.resolve_right fun hopening => absurd (hs.symm.trans hopening) (by simp)
    obtain ⟨log, earlier, hsockets⟩ := List.exists_cons_of_ne_nil hseated
    refine ⟨log ++ [.call (.send frame more) (some (.done x))], ?_, x, by simp⟩
    rw [hwire, Wire.sockets_note_outcome hunder hsockets]
    exact List.mem_cons_self
  · exact absurd hf (by simp)

theorem sent_link (h : c.Underway p) (hs : c.Sent p) (hm : c.move? (.link a) = some c') : c'.Sent p := by
  obtain ⟨-, -, hdelivery, -⟩ := of_link hm
  have hadvance := Delivery.advance_answer (a := a) h.sound.result
  have hgoal := h.sound.goal
  rw [← hdelivery] at hadvance
  generalize hd : c'.delivery = d at hadvance
  generalize movesOf _ = moves at hadvance
  generalize hending : Delivery.ending? _ _ = ending at hadvance
  have hkept : d.leg = c.delivery.leg → d.result ≠ some (.ok ()) ∨ d.leg = .reply → c'.Sent p := by
    intro hleg hresult
    constructor
    case nonce =>
      intro hne
      rw [hd, hleg] at hne
      exact (hs.nonce hne).link hm
    case ciphertext =>
      intro heq
      rw [hd, hleg] at heq
      exact (hs.ciphertext heq).link hm
    case replied =>
      intro hok
      rw [hd] at hok ⊢
      exact hresult.resolve_left fun hno => hno hok
  cases hadvance with
  | ongoing => exact hkept rfl (.inl (by simp [h.sound.result]))
  | cancelled | stranded => exact hkept rfl (.inl (by simp))
  | replied hr hl => exact hkept hl.symm (.inr rfl)
  | nonceOut hr hl =>
    rw [hl] at hgoal
    have hsent : c'.HasSent p.nonce true := h.nonce ▸ h.hasSent hm hgoal hr
    exact ⟨fun _ => hsent, by simp [hd], by simp [hd]⟩
  | ciphertextOut hr hl =>
    rw [hl] at hgoal
    have hsent : c'.HasSent p.ciphertext false := h.ciphertext ▸ h.hasSent hm hgoal hr
    exact ⟨fun _ => (hs.nonce (by simp [hl])).link hm, fun _ => hsent, by simp [hd]⟩
  | retried => exact ⟨by simp [hd], by simp [hd], by simp [hd]⟩

/-! ### What is not answered -/

/-- Until something is answered, a delivery stays as it is, and so do its sockets. -/
theorem delivery_of_not_link (hm : c.move? m = some c') (hl : ∀ a, m ≠ .link a) :
    c'.delivery = c.delivery ∧ c'.wire.sockets = c.wire.sockets ∧ c'.told = c.told := by
  cases m with
  | link a => exact absurd rfl (hl a)
  | callOff | call =>
    obtain ⟨wire, hw, rfl⟩ := Option.map_eq_some_iff.1 hm
    exact ⟨rfl, (Wire.sockets_step? hw hl).1, rfl⟩

/-- Nothing is wanted any more, so that nothing can be answered. -/
theorem not_link_of_result {r : Except PublishFault Unit} (hr : c.delivery.result = some r)
    (hm : c.move? m = some c') : ∀ a, m ≠ .link a := by
  rintro a rfl
  obtain ⟨hp, -⟩ := of_link hm
  have hfits := Wire.fits_of_possible hp
  rw [Delivery.want, hr] at hfits
  exact absurd hfits (by cases a <;> simp [LinkAnswer.fits])

/-- A delivery that has come to a result changes nothing any more, and asks nothing of its sockets. -/
theorem still {r : Except PublishFault Unit} (hr : c.delivery.result = some r)
    (hm : c.move? m = some c') : c'.delivery = c.delivery ∧ c'.wire.logs = c.wire.logs := by
  cases m with
  | link a => exact absurd rfl (not_link_of_result hr hm a)
  | call =>
    obtain ⟨wire, hw, -⟩ := Option.map_eq_some_iff.1 hm
    obtain ⟨k, limit, hwant, -⟩ := Wire.of_begin? hw
    exact absurd hwant (by simp [Delivery.want, hr])
  | callOff =>
    obtain ⟨wire, hw, rfl⟩ := Option.map_eq_some_iff.1 hm
    obtain rfl := Option.some.inj hw
    exact ⟨rfl, rfl⟩

theorem begun_le (hm : c.move? m = some c') : c.begun ≤ c'.begun := by
  cases m with
  | link a =>
    rw [begun_link hm]
    exact Nat.le_add_right _ _
  | callOff | call =>
    obtain ⟨-, -, htold⟩ := delivery_of_not_link hm (by simp)
    exact Nat.le_of_eq (by rw [begun, begun, htold])

theorem begun_start (l : Link) (p : PreparedBatch) : (start l p).begun = 1 := by
  have hmoves : movesOf (start l p).told = [(p.state, .sending)] := Delivery.movesOf_start l p
  rw [begun, hmoves]
  rfl

/-! ### A batch in any state -/

/-- A delivery of a batch in any state.  It fares as if the batch had never been offered: the only difference is
in what is told when it begins. -/
def Fares (p : PreparedBatch) (c : Consignment) : Prop :=
  c.Sent p.unoffered ∧
    ∃ told, Stands p.unoffered { c with told } ∧ ({ c with told } : Consignment).begun = c.begun

theorem fares_start (l : Link) (p : PreparedBatch) : Fares p (start l p) := by
  refine ⟨(sent_start l p.unoffered).congr rfl rfl, (start l p.unoffered).told,
    .inl (underway_start (.inl rfl)), ?_⟩
  show (start l p.unoffered).begun = (start l p).begun
  rw [begun_start, begun_start]

/-- What was told before plays no part. -/
theorem move?_retold (told : List CourierNotice) (hm : c.move? m = some c') :
    ∃ new, c'.told = c.told ++ new ∧
      ({ c with told } : Consignment).move? m = some { c' with told := told ++ new } := by
  obtain ⟨wire, hw, rfl⟩ := Option.map_eq_some_iff.1 hm
  have hmove : ({ c with told } : Consignment).move? m = (some wire).map _ := congrArg (Option.map _) hw
  cases m with
  | link a => exact ⟨_, rfl, hmove⟩
  | callOff | call =>
    refine ⟨[], (List.append_nil _).symm, ?_⟩
    rw [List.append_nil]
    exact hmove

theorem begun_append (told new : List CourierNotice) :
    ({ c with told := told ++ new } : Consignment).begun
      = ({ c with told } : Consignment).begun + beginnings (movesOf new) := by
  rw [begun, begun, movesOf_append, beginnings, List.countP_append]
  rfl

/-- **A delivery does not look at the state of its batch.** -/
theorem fares_move? (h : c.Fares p) (hm : c.move? m = some c') : c'.Fares p := by
  obtain ⟨hsent, told, hstands, hbegun⟩ := h
  obtain ⟨new, htold, hretold⟩ := move?_retold told hm
  have hcount : c'.begun = c.begun + beginnings (movesOf new) := by
    rw [begun, htold, movesOf_append, beginnings, List.countP_append]
    rfl
  refine ⟨?_, told ++ new, stands_move? hstands hretold, by rw [hcount, ← hbegun]; exact begun_append _ _⟩
  by_cases hlink : ∀ a, m ≠ .link a
  · obtain ⟨hdelivery, hsockets, -⟩ := delivery_of_not_link hm hlink
    exact hsent.congr hdelivery hsockets
  · obtain ⟨a, rfl⟩ : ∃ a, m = .link a := by simpa using hlink
    rcases hstands with hunderway | ⟨r, hr, -⟩
    · exact (sent_link hunderway (hsent.congr rfl rfl) hretold).congr rfl rfl
    · exact absurd rfl (not_link_of_result hr hretold a)

/-- A batch is delivered exactly if its delivery has succeeded. -/
theorem Fares.delivered_iff (h : c.Fares p) :
    c.delivery.prepared.state = .delivered ↔ c.delivery.result = some (.ok ()) := by
  obtain ⟨-, told, hunderway | ⟨r, hr, hlaw⟩, -⟩ := h
  · have hnone : c.delivery.result = none := hunderway.sound.result
    have hstate : c.delivery.prepared.state = c.delivery.leg.state := hunderway.state
    rw [hnone, hstate]
    cases c.delivery.leg <;> simp [Leg.state]
  · have hr : c.delivery.result = some r := hr
    rw [hr]
    constructor
    · intro hdelivered
      by_contra hno
      rcases hlaw.undelivered fun hok => hno (congrArg some hok) with hopen | hopen | hopen
      all_goals exact absurd (hdelivered.symm.trans hopen) (by simp)
    · intro hok
      exact hlaw.delivered (Option.some.inj hok)

theorem Fares.abides (h : c.Fares p) :
    c.delivery.prepared.batch = p.batch ∧ c.delivery.prepared.nonce = p.nonce ∧
      c.delivery.prepared.ciphertext = p.ciphertext ∧
      c.delivery.prepared.attempts = p.attempts + .ofNat c.begun := by
  obtain ⟨-, told, hstands, hbegun⟩ := h
  have habides : Abides p.unoffered { c with told } := by
    rcases hstands with hunderway | ⟨r, -, hlaw⟩
    · exact hunderway.toAbides
    · exact hlaw.toAbides
  exact ⟨habides.batch, habides.nonce, habides.ciphertext, hbegun ▸ habides.attempts⟩

/-- A delivery that has succeeded has sent both frames. -/
theorem Fares.hasSent (h : c.Fares p) (hr : c.delivery.result = some (.ok ())) :
    c.HasSent p.nonce true ∧ c.HasSent p.ciphertext false := by
  obtain ⟨hsent, -⟩ := h
  have hleg := hsent.replied hr
  exact ⟨hsent.nonce (by simp [hleg]), hsent.ciphertext hleg⟩

end Consignment

/-! ### One delivery after the other -/

/-- A batch that is delivered time and again. -/
structure Circulation where
  origin : PreparedBatch
  /-- The deliveries that have begun, the latest first. -/
  deliveries : List Consignment := []

/-- The batch as the latest of some deliveries has left it. -/
def PreparedBatch.leftBy (p : PreparedBatch) : List Consignment → PreparedBatch
  | [] => p
  | d :: _ => d.delivery.prepared

namespace Circulation

/-- A delivery begins on a link in any state, whatever the one before it has come to; or the latest delivery goes
on. -/
inductive Step where
  | deliver (l : Link)
  | go (m : Wire.Step)

def Step.begins : Step → Bool
  | deliver _ => true
  | go _ => false

/-- The batch as it is now. -/
def batch (c : Circulation) : PreparedBatch := c.origin.leftBy c.deliveries

/-- What comes of a step, if it is possible. -/
def move? (c : Circulation) : Step → Option Circulation
  | .deliver l => some { c with deliveries := .start l c.batch :: c.deliveries }
  | .go m =>
    match c.deliveries with
    | [] => none
    | d :: earlier => (d.move? m).map fun d => { c with deliveries := d :: earlier }

/-- What comes of several steps, if each is possible. -/
abbrev run? : Circulation → List Step → Option Circulation := runSteps move?

/-- The number of exchanges that have begun. -/
def begun (c : Circulation) : Nat := (c.deliveries.map Consignment.begun).sum

/-- All that was ever asked of sockets, by delivery and by socket. -/
def logs (c : Circulation) : List (List (List Entry)) := c.deliveries.map fun d => d.wire.logs

/-- What the latest delivery has come to. -/
def result? (c : Circulation) : Option (Except PublishFault Unit) :=
  c.deliveries.head?.bind fun d => d.delivery.result

/-- Each delivery has begun with the batch as the one before has left it. -/
inductive Made (p : PreparedBatch) : List Consignment → Prop where
  | nil : Made p []
  | cons {d : Consignment} {earlier : List Consignment} (h : Made p earlier)
      (hd : d.Fares (p.leftBy earlier)) : Made p (d :: earlier)

variable {p : PreparedBatch} {c c' : Circulation} {m : Step} {ms : List Step} {ds : List Consignment}
  {d : Consignment}

/-- The wire form stays the same, and every exchange is counted. -/
theorem Made.abides (h : Made p ds) :
    (p.leftBy ds).batch = p.batch ∧ (p.leftBy ds).nonce = p.nonce ∧ (p.leftBy ds).ciphertext = p.ciphertext ∧
      (p.leftBy ds).attempts = p.attempts + .ofNat (ds.map Consignment.begun).sum := by
  induction h with
  | nil => exact ⟨rfl, rfl, rfl, (UInt32.add_zero _).symm⟩
  | @cons d earlier _ hd ih =>
    obtain ⟨hbatch, hnonce, hciphertext, hattempts⟩ := ih
    obtain ⟨hbatch', hnonce', hciphertext', hattempts'⟩ := hd.abides
    refine ⟨hbatch'.trans hbatch, hnonce'.trans hnonce, hciphertext'.trans hciphertext, ?_⟩
    show d.delivery.prepared.attempts = _
    rw [hattempts', hattempts, List.map_cons, List.sum_cons, UInt32.add_assoc, ← UInt32.ofNat_add,
      Nat.add_comm]

/-- Each delivery that has succeeded has sent both frames of the batch itself. -/
theorem Made.hasSent (h : Made p ds) (hd : d ∈ ds) (hr : d.delivery.result = some (.ok ())) :
    d.HasSent p.nonce true ∧ d.HasSent p.ciphertext false := by
  induction h with
  | nil => exact absurd hd List.not_mem_nil
  | cons hearlier hfares ih =>
    rcases List.mem_cons.1 hd with rfl | hd
    · obtain ⟨-, hnonce, hciphertext, -⟩ := hearlier.abides
      exact hnonce ▸ hciphertext ▸ hfares.hasSent hr
    · exact ih hd

theorem made_move? (h : Made c.origin c.deliveries) (hm : c.move? m = some c') :
    c'.origin = c.origin ∧ Made c'.origin c'.deliveries := by
  cases m with
  | deliver l =>
    obtain rfl := Option.some.inj hm
    exact ⟨rfl, h.cons (Consignment.fares_start l c.batch)⟩
  | go m =>
    obtain ⟨origin, deliveries⟩ := c
    cases h with
    | nil => exact absurd hm (by simp [move?])
    | cons hearlier hfares =>
      obtain ⟨d', hd', rfl⟩ := Option.map_eq_some_iff.1 hm
      exact ⟨rfl, hearlier.cons (Consignment.fares_move? hfares hd')⟩

theorem made_run? (h : c.run? ms = some c') (hc : c.origin = p ∧ Made p c.deliveries) :
    c'.origin = p ∧ Made p c'.deliveries := by
  refine runSteps_induction (P := fun c : Circulation => c.origin = p ∧ Made p c.deliveries) ?_ h hc
  rintro m s s' ⟨rfl, hmade⟩ hm
  obtain ⟨hsame, hmade'⟩ := made_move? hmade hm
  exact ⟨hsame, hsame ▸ hmade'⟩

/-- A batch is delivered exactly if the latest delivery has succeeded. -/
theorem Made.delivered_iff (h : Made c.origin c.deliveries) (hp : c.origin.state ≠ .delivered) :
    c.batch.state = .delivered ↔ c.result? = some (.ok ()) := by
  obtain ⟨origin, deliveries⟩ := c
  cases h with
  | nil => exact ⟨fun hd => absurd hd hp, fun hr => absurd hr (by simp [result?])⟩
  | cons _ hfares => exact hfares.delivered_iff

/-! ### A second delivery -/

/-- The latest delivery goes on by itself. -/
theorem run?_go (d : Consignment) (earlier : List Consignment) (ms : List Wire.Step) :
    run? ⟨p, d :: earlier⟩ (ms.map .go) = (d.run? ms).map fun d => ⟨p, d :: earlier⟩ := by
  induction ms generalizing d with
  | nil => rfl
  | cons m ms ih =>
    cases hd : d.move? m with
    | none => simp [runSteps, move?, hd]
    | some d' => simp [runSteps, move?, hd, ih d']

/-- A delivery from its beginning. -/
theorem run?_deliver (c : Circulation) (l : Link) (ms : List Wire.Step) :
    c.run? (.deliver l :: ms.map .go)
      = ((Consignment.start l c.batch).run? ms).map fun d => { c with deliveries := d :: c.deliveries } :=
  run?_go _ _ ms

def connected : Link :=
  { Consignment.unconnected with
    session := some ⟨⟨"tcp://collector:5005"⟩, false⟩, sessions := 1, attempts := 1 }

/-- Both frames are sent on the socket that is there, and the reply comes. -/
def sentAndReplied : List Wire.Step :=
  [.call, .link (.outcome (.done [])), .call, .link (.outcome (.done [])), .call, .link (.outcome (.done [3]))]

/-- What is asked of a socket that takes a batch. -/
def exchange (p : PreparedBatch) : List Entry :=
  [.call (.send p.nonce true) (some (.done [])), .call (.send p.ciphertext false) (some (.done [])),
    .call .receive (some (.done [3]))]

/-- The state of the batch plays no part in it, and the link can be used once more. -/
theorem delivers_connected (p : PreparedBatch) :
    ((Consignment.start connected p).run? sentAndReplied).map
        (fun d => (d.delivery.operation.link, d.delivery.prepared, d.wire.logs))
      = some (connected, { p with state := .delivered, attempts := p.attempts + 1 }, [exchange p]) := by
  rfl

/-- A delivery of a batch on which nothing goes wrong. -/
def goesWell : List Step := .deliver connected :: sentAndReplied.map .go

/-- Whatever has become of a batch, it can be delivered on a link that is connected: that is counted, and both
frames are sent. -/
theorem run?_goesWell (c : Circulation) : ∃ c', c.run? goesWell = some c' ∧
    c'.batch = { c.batch with state := .delivered, attempts := c.batch.attempts + 1 } ∧
    c'.logs = [exchange c.batch] :: c.logs := by
  obtain ⟨d, hd, hrest⟩ := Option.map_eq_some_iff.1 (delivers_connected c.batch)
  obtain ⟨-, hrest⟩ := Prod.mk.inj hrest
  obtain ⟨hprepared, hlogs⟩ := Prod.mk.inj hrest
  exact ⟨⟨c.origin, d :: c.deliveries⟩, (run?_deliver _ _ _).trans (congrArg (Option.map _) hd), hprepared,
    congrArg (fun logs => logs :: c.logs) hlogs⟩

/-- Every batch can be delivered twice, on one link.  The second time, too, is counted and sends both frames. -/
theorem delivered_twice (p : PreparedBatch) : ∃ c c',
    run? { origin := p } goesWell = some c ∧
    c.batch = { p with state := .delivered, attempts := p.attempts + 1 } ∧ c.logs = [[exchange p]] ∧
    c.run? goesWell = some c' ∧
    c'.batch = { p with state := .delivered, attempts := p.attempts + 1 + 1 } ∧
    c'.logs = [[exchange p], [exchange p]] := by
  obtain ⟨c, h, hbatch, hlogs⟩ := run?_goesWell { origin := p }
  obtain ⟨c', h', hbatch', hlogs'⟩ := run?_goesWell c
  rw [hbatch] at hbatch' hlogs'
  rw [hlogs] at hlogs'
  exact ⟨c, c', h, hbatch, hlogs, h', hbatch', hlogs'⟩

/-- A batch of one line with its wire form. -/
def sealedLine : PreparedBatch :=
  .ofBatch ⟨0, [.read 0 "log" 5 1 "line"]⟩ (Box.ofKeys ⟨.zero, .zero⟩) (List.replicate nonceSize 0)

/-! ### How long a batch is delivered -/

/-- Each delivery that begins adds an exchange, and nothing takes one away. -/
theorem begun_move? (hm : c.move? m = some c') : c.begun + (if m.begins then 1 else 0) ≤ c'.begun := by
  cases m with
  | deliver l =>
    obtain rfl := Option.some.inj hm
    simp only [begun, List.map_cons, List.sum_cons, Consignment.begun_start, Step.begins, if_true]
    omega
  | go m =>
    obtain ⟨origin, deliveries⟩ := c
    cases deliveries with
    | nil => exact absurd hm (by simp [move?])
    | cons d earlier =>
      obtain ⟨d', hd', rfl⟩ := Option.map_eq_some_iff.1 hm
      exact Nat.add_le_add_right (Consignment.begun_le hd') _

/-- When the latest delivery has come to a result, nothing changes until another one begins. -/
theorem still_move? {r : Except PublishFault Unit} (hr : c.result? = some r) (hb : m.begins = false)
    (hm : c.move? m = some c') : c'.batch = c.batch ∧ c'.logs = c.logs ∧ c'.result? = some r := by
  cases m with
  | deliver l => exact absurd hb (by simp [Step.begins])
  | go m =>
    obtain ⟨origin, deliveries⟩ := c
    cases deliveries with
    | nil => exact absurd hm (by simp [move?])
    | cons d earlier =>
      obtain ⟨d', hd', rfl⟩ := Option.map_eq_some_iff.1 hm
      have hr : d.delivery.result = some r := hr
      obtain ⟨hdelivery, hlogs⟩ := Consignment.still hr hd'
      refine ⟨congrArg Delivery.prepared hdelivery, ?_, (congrArg Delivery.result hdelivery).trans hr⟩
      show d'.wire.logs :: _ = d.wire.logs :: _
      rw [hlogs]

/-- What holds of a batch that was delivered, after more steps. -/
structure Lasting (c : Circulation) (ms : List Step) (c' : Circulation) : Prop where
  /-- As long as no other delivery begins, the batch stays as it is, and nothing is asked of any socket. -/
  kept : (∀ m ∈ ms, m.begins = false) → c'.batch = c.batch ∧ c'.logs = c.logs
  /-- Another delivery may begin at any time, on any link.  Then the batch is delivered no longer. -/
  left : ∀ l, ∃ c₁, c'.move? (.deliver l) = some c₁ ∧
    c₁.batch = { c'.batch with state := .sending, attempts := c'.batch.attempts + 1 }
  /-- Each that has begun has added an exchange at least, and all of them are counted. -/
  begun : c.begun + ms.countP Step.begins ≤ c'.begun
  attempts : c'.batch.attempts = c.batch.attempts + .ofNat (c'.begun - c.begun)
  /-- It is delivered again exactly if the latest of them has succeeded. -/
  delivered : c'.batch.state = .delivered ↔ c'.result? = some (.ok ())
  /-- Each that has succeeded has sent both frames, and they are the same every time. -/
  sent : ∀ d ∈ c'.deliveries, d.delivery.result = some (.ok ()) →
    d.HasSent c.batch.nonce true ∧ d.HasSent c.batch.ciphertext false
  wire : c'.batch.batch = c.batch.batch ∧ c'.batch.nonce = c.batch.nonce ∧
    c'.batch.ciphertext = c.batch.ciphertext

/-- **A batch that is delivered stays so until it is delivered again,** on whatever link, in whatever way the
sockets answer, and whenever all is called off.  Another delivery takes no notice of the state: it begins a new
exchange, which takes the batch out of this state, and it succeeds only after both frames have been sent once
more. -/
theorem stays_delivered {before after : List Step} (hp : p.state ≠ .delivered)
    (h : run? { origin := p } before = some c) (hd : c.batch.state = .delivered)
    (h' : c.run? after = some c') : Lasting c after c' := by
  obtain ⟨rfl, hmade⟩ := made_run? h ⟨rfl, .nil⟩
  obtain ⟨horigin, hmade'⟩ := made_run? h' ⟨rfl, hmade⟩
  have hbatch' : c'.batch = c.origin.leftBy c'.deliveries := by rw [batch, horigin]
  obtain ⟨hbatch₁, hnonce₁, hciphertext₁, hattempts₁⟩ := hmade.abides
  obtain ⟨hbatch₂, hnonce₂, hciphertext₂, hattempts₂⟩ := hmade'.abides
  rw [← hbatch'] at hbatch₂ hnonce₂ hciphertext₂ hattempts₂
  have hbegun := countP_le_of_runSteps (fun _ _ _ => begun_move?) h'
  constructor
  case kept =>
    intro hnone
    have hr := (hmade.delivered_iff hp).1 hd
    have hstill : c'.batch = c.batch ∧ c'.logs = c.logs ∧ c'.result? = some (.ok ()) := by
      refine runSteps_induction_of_mem (P := fun x : Circulation =>
        x.batch = c.batch ∧ x.logs = c.logs ∧ x.result? = some (.ok ())) ?_ h' ⟨rfl, rfl, hr⟩
      rintro m hmem s s' ⟨hb, hl, hs⟩ hm
      obtain ⟨hb', hl', hs'⟩ := still_move? hs (hnone m hmem) hm
      exact ⟨hb'.trans hb, hl'.trans hl, hs'⟩
    exact ⟨hstill.1, hstill.2.1⟩
  case left =>
    intro l
    exact ⟨_, rfl, rfl⟩
  case begun => exact hbegun
  case attempts =>
    have hsplit : c'.begun = c.begun + (c'.begun - c.begun) := by omega
    have hold : c.batch.attempts = c.origin.attempts + .ofNat c.begun := hattempts₁
    rw [hold, UInt32.add_assoc, ← UInt32.ofNat_add, ← hsplit]
    exact hattempts₂
  case delivered => exact (horigin ▸ hmade').delivered_iff (horigin ▸ hp)
  case sent =>
    intro d hmem hr
    have hsent := hmade'.hasSent hmem hr
    rwa [← hnonce₁, ← hciphertext₁] at hsent
  case wire => exact ⟨hbatch₂.trans hbatch₁.symm, hnonce₂.trans hnonce₁.symm, hciphertext₂.trans hciphertext₁.symm⟩

theorem stays_delivered_resent : ∃ c c',
    run? { origin := sealedLine } goesWell = some c ∧ c.batch.state = .delivered ∧
    c.run? goesWell = some c' ∧ c'.batch.attempts = 2 ∧ Lasting c goesWell c' := by
  obtain ⟨c, c', h, hbatch, -, h', hbatch', -⟩ := delivered_twice sealedLine
  have hdelivered : c.batch.state = .delivered := congrArg PreparedBatch.state hbatch
  have hattempts : c'.batch.attempts = 2 := congrArg PreparedBatch.attempts hbatch'
  exact ⟨c, c', h, hdelivered, h', hattempts, stays_delivered (p := sealedLine) (by decide) h hdelivered h'⟩

/-- **A batch that was acknowledged is sent again** by the next delivery: it does not stay delivered, its frames
are on the socket once more, and there is one more exchange. -/
theorem acknowledged_sent_again : ∃ c c',
    run? { origin := sealedLine } goesWell = some c ∧
    c.batch.state = .delivered ∧ c.batch.attempts = 1 ∧ c.logs = [[exchange sealedLine]] ∧
    (c.move? (.deliver connected)).map (fun c => c.batch.state) = some .sending ∧
    c.run? goesWell = some c' ∧ c'.batch.attempts = 2 ∧
    c'.logs = [[exchange sealedLine], [exchange sealedLine]] := by
  obtain ⟨c, c', h, hbatch, hlogs, h', hbatch', hlogs'⟩ := delivered_twice sealedLine
  exact ⟨c, c', h, congrArg PreparedBatch.state hbatch, congrArg PreparedBatch.attempts hbatch, hlogs, rfl, h',
    congrArg PreparedBatch.attempts hbatch', hlogs'⟩

end Circulation

end LogRelay
