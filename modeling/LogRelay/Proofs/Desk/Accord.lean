import LogRelay.Proofs.Courier
import LogRelay.Proofs.Desk.Basic
import LogRelay.Proofs.Wire.Accord

/-!
# A desk and its sockets agree

* `Courier.Accord`: a courier agrees with the latest socket of its link;
* `Courier.Answered`, `Courier.answered_of_possible`: all that the queues of a courier can lead to;
* `Engagement.Accord`: whatever a link is used for does;
* `Desk.Accord`, `Desk.accord_move?`: a desk does, the call that is under way is the one that is
  wanted, and the batch that is delivered is the one that was given last; and every step keeps all
  this.
-/

namespace LogRelay

/-! ### Couriers -/

namespace Courier

variable {c c' : Courier} {w w' : Wire} {ph : Phase} {offered : List Frames} {l : Link}

/-- A courier agrees with the socket: it delivers, or its link is not in use, or is being closed, or
is closed. -/
def Accord (w : Wire) (ph : Phase) (c : Courier) : Prop :=
  match c.stage with
  | .ready l | .preparing l _ | .checking l _ | .handing l _ => l.Rests w.called ph
  | .delivering d => d.Accord w ph
  | .closing o _ =>
    o.stage = .ending (.stop [] (.ok [])) ∧ ph ≠ .closed ∧ (w.called = true ∨ ph = .ready)
  | .finished _ _ => ph = .closed

theorem Accord.mono (h : c.Accord w ph) (hc : w.called = true → w'.called = true)
    (hs : w.Silent → w'.Silent) : c.Accord w' ph := by
  unfold Accord at h ⊢
  cases hstage : c.stage with
  | ready | preparing | checking | handing =>
    rw [hstage] at h
    exact Link.Rests.mono h hc
  | delivering d =>
    rw [hstage] at h
    exact Delivery.Accord.mono h hc hs
  | closing o r =>
    rw [hstage] at h
    exact ⟨h.1, h.2.1, h.2.2.imp_left hc⟩
  | finished l r =>
    rw [hstage] at h
    exact h

theorem accord_wrapUp (notices : List CourierNotice) (r : Except PublishFault Unit)
    (h : l.Rests w.called ph) : (c.wrapUp notices l r).next.Accord w ph := by
  rw [Link.Rests] at h
  cases hl : l.session with
  | none =>
    rw [hl] at h
    rw [next_wrapUp_of_none c notices r hl]
    exact h
  | some s =>
    rw [hl] at h
    rw [next_wrapUp_of_some c notices r hl]
    exact ⟨rfl, h.1, h.2.imp_right And.left⟩

theorem accord_deliver {d : Delivery} (notices : List CourierNotice)
    (h : (d.result = none ∧ d.Accord w ph) ∨
      (d.result.isSome = true ∧ d.operation.link.Rests w.called ph)) :
    (c.deliver notices d).next.Accord w ph := by
  rw [deliver]
  rcases h with ⟨hr, h⟩ | ⟨hr, h⟩
  · rw [hr]
    exact h
  · cases hres : d.result with
    | none => exact absurd hr (by simp [hres])
    | some v =>
      cases v with
      | ok u => exact h
      | error f => cases f <;> exact accord_wrapUp _ _ h

/-- **Every answer keeps a courier and the socket in accord.** -/
theorem accord_link {want : LinkWant} {a : LinkAnswer} (place : Nat) (h : c.Accord w ph)
    (hwant : c.want = .link want)
    (hoffered : ∀ d, c.stage = .delivering d → d.prepared.frames ∈ offered) (hw : w.InPhase offered ph)
    (hunder : ∀ x, w.under = some x → ∃ limit, want = .call x limit) (hp : w.possible want a = true) :
    ∃ ph', (w.note place a).InPhase offered ph' ∧
      (c.answer (.link a)).next.Accord (w.note place a) ph' := by
  rcases stage_of_want_link hwant with ⟨d, hs, rfl⟩ | ⟨o, r, hs, rfl⟩
  · simp only [Accord, hs] at h
    have ht := Delivery.turn_answer h.1.result (Wire.fits_of_possible hp)
    obtain ⟨ph', hw', hd⟩ := Delivery.accord_turn place h (hoffered d hs) hw hunder ht hp
    refine ⟨ph', hw', ?_⟩
    rw [next_answer_delivering hs]
    exact accord_deliver _ (by rwa [Wire.called_note])
  · simp only [Accord, hs] at h
    obtain ⟨hstage, hopen, hready⟩ := h
    have hfit := Wire.fits_of_possible hp
    rw [Operation.want, hstage] at hfit
    obtain rfl := LinkAnswer.eq_closed_of_fits hfit
    have hhalf (hno : ph.isHalfway = true) : w.called = true := by
      rcases hready with hcalled | rfl
      · exact hcalled
      · exact absurd hno (by simp [Phase.isHalfway])
    refine ⟨.closed, hw.close hopen hhalf, ?_⟩
    have hnext : (c.answer (.link .closed)).next.stage = .finished o.link r := by
      simp only [answer, hs, Operation.answer, hstage, closeWith, Operation.goto, Operation.result?,
        goto]
    simp only [Accord, hnext]

/-- What the queues, or the octets of a nonce, lead to; the courier has `ended` when no more batches
come or all is called off. -/
inductive Answered (c : Courier) : CourierAnswer → Courier → Prop where
  | took {l : Link} (hs : c.stage = .ready l) (b : Batch) :
      Answered c (.took (.item b)) { c with stage := if b.isEmpty then .checking l b else .preparing l b }
  | ended {l : Link} (hs : c.stage = .ready l) {t : Taking Batch} (ht : ∀ b, t ≠ .item b)
      (notices : List CourierNotice) : Answered c (.took t) (c.wrapUp notices l (.ok ())).next
  | prepared {l : Link} {b : Batch} (hs : c.stage = .preparing l b) (bs : Bytes) :
      Answered c (.nonce bs) { c with stage := .delivering (Delivery.start l (.ofBatch b c.box bs)).next }
  | probed {l : Link} {b : Batch} (hs : c.stage = .checking l b) (gone : Bool) :
      Answered c (.probed gone) { c with stage := if gone then .ready l else .handing l b }
  | handed {l : Link} {b : Batch} (hs : c.stage = .handing l b) (t : Handing) :
      Answered c (.handed t) { c with stage := .ready l }

/-- **An answer that is possible is one of those above.** -/
theorem answered_of_possible {a : CourierAnswer} {called : Bool}
    (ha : a.possible called c.want = true) : c.Answered a (c.answer a).next := by
  cases hs : c.stage with
  | ready l =>
    rw [want, hs] at ha
    cases a with
    | took t =>
      cases t with
      | item b =>
        have hnext : (c.answer (.took (.item b))).next
            = { c with stage := if b.isEmpty then .checking l b else .preparing l b } := by
          simp only [answer, hs]
          split <;> rfl
        rw [hnext]
        exact .took hs b
      | closed =>
        simp only [answer, hs]
        exact .ended hs (by simp) _
      | cancelled =>
        simp only [answer, hs]
        exact .ended hs (by simp) _
    | nonce | link | probed | handed => exact absurd ha (by simp [CourierAnswer.possible])
  | preparing l b =>
    rw [want, hs] at ha
    cases a with
    | nonce bs =>
      rw [next_answer_nonce hs]
      exact .prepared hs bs
    | took | link | probed | handed => exact absurd ha (by simp [CourierAnswer.possible])
  | checking l b =>
    rw [want, hs] at ha
    cases a with
    | probed gone =>
      have hnext : (c.answer (.probed gone)).next
          = { c with stage := if gone then .ready l else .handing l b } := by
        simp only [answer, hs]
        cases gone <;> rfl
      rw [hnext]
      exact .probed hs gone
    | took | link | nonce | handed => exact absurd ha (by simp [CourierAnswer.possible])
  | handing l b =>
    rw [want, hs] at ha
    cases a with
    | handed t =>
      simp only [answer, hs]
      exact .handed hs t
    | took | link | nonce | probed => exact absurd ha (by simp [CourierAnswer.possible])
  | delivering | closing | finished =>
    rw [want, hs] at ha
    exact absurd ha (by cases a <;> simp [CourierAnswer.possible])

/-- The queues do not touch the socket. -/
theorem accord_queue {a : CourierAnswer} (h : c.Accord w ph) (hu : w.under = none)
    (ht : c.Answered a c') : c'.Accord w ph := by
  cases ht with
  | took hs b =>
    simp only [Accord, hs] at h ⊢
    cases b.isEmpty <;> exact h
  | ended hs ht notices =>
    simp only [Accord, hs] at h
    exact accord_wrapUp _ _ h
  | prepared hs bs =>
    simp only [Accord, hs] at h
    exact Delivery.accord_start h hu
  | probed hs gone =>
    simp only [Accord, hs] at h ⊢
    cases gone <;> exact h
  | handed hs t =>
    simp only [Accord, hs] at h
    exact h

/-- A delivery begins when a batch gets its wire form. -/
theorem Answered.preparing {a : CourierAnswer} {d : Delivery} (ht : c.Answered a c')
    (h : c'.stage = .delivering d) :
    ∃ l b bs, c.stage = .preparing l b ∧ a = .nonce bs ∧
      d = (Delivery.start l (.ofBatch b c.box bs)).next := by
  cases ht with
  | prepared hs bs => exact ⟨_, _, bs, hs, rfl, (CourierStage.delivering.inj h).symm⟩
  | took hs b => exact absurd h (by cases b.isEmpty <;> simp)
  | ended hs ht notices => exact absurd h ((of_verdict? (verdict?_wrapUp _ _ _ _)).2.2 d)
  | probed hs gone => exact absurd h (by cases gone <;> simp)
  | handed hs t => exact absurd h (by simp)

end Courier

/-! ### Desks -/

namespace Engagement

variable {e : Engagement} {w w' : Wire} {ph : Phase} {offered : List Frames} {d : Delivery}

/-- Whatever a link is used for agrees with the socket. -/
def Accord (w : Wire) (ph : Phase) : Engagement → Prop
  | idle l => l.Rests w.called ph
  | delivering d => d.Accord w ph
  | running c => c.Accord w ph

theorem stage_of_delivery? {c : Courier} (h : (running c).delivery? = some d) :
    c.stage = .delivering d := by
  unfold delivery? at h
  cases hs : c.stage with
  | delivering x =>
    simp only [hs] at h
    rw [Option.some.inj h]
  | ready | preparing | checking | handing | closing | finished =>
    simp only [hs] at h
    exact absurd h (by simp)

theorem Accord.mono (h : e.Accord w ph) (hc : w.called = true → w'.called = true)
    (hs : w.Silent → w'.Silent) : e.Accord w' ph := by
  cases e with
  | idle l => exact Link.Rests.mono h hc
  | delivering d => exact Delivery.Accord.mono h hc hs
  | running c => exact Courier.Accord.mono h hc hs

theorem accord_ofDelivery
    (h : (d.result = none ∧ d.Accord w ph) ∨
      (d.result.isSome = true ∧ d.operation.link.Rests w.called ph)) :
    (ofDelivery d).Accord w ph := by
  rw [ofDelivery]
  rcases h with ⟨hr, h⟩ | ⟨hr, h⟩
  · rw [hr]
    exact h
  · cases hres : d.result with
    | none => exact absurd hr (by simp [hres])
    | some v => exact h

/-- A courier whose link can be answered wants something of it. -/
theorem want_of_fits {c : Courier} {a : LinkAnswer} (h : a.fits (running c).want = true) :
    c.want = .link (running c).want := by
  rw [want] at h ⊢
  cases hc : c.want with
  | link w => rfl
  | batch | nonce | probe | room | nothing =>
    rw [hc] at h
    exact absurd h (by cases a <;> simp [LinkAnswer.fits])

theorem accord_answer {a : LinkAnswer} (place : Nat) (h : e.Accord w ph)
    (hoffered : ∀ d, e.delivery? = some d → d.prepared.frames ∈ offered) (hw : w.InPhase offered ph)
    (hunder : ∀ x, w.under = some x → ∃ limit, e.want = .call x limit)
    (hp : w.possible e.want a = true) :
    ∃ ph', (w.note place a).InPhase offered ph' ∧ (e.answer a).Accord (w.note place a) ph' := by
  have hfit := Wire.fits_of_possible hp
  cases e with
  | idle l => exact absurd hfit (by cases a <;> simp [want, LinkAnswer.fits])
  | delivering d =>
    have ht := Delivery.turn_answer h.1.result hfit
    obtain ⟨ph', hw', hd⟩ := Delivery.accord_turn place h (hoffered d rfl) hw hunder ht hp
    exact ⟨ph', hw', accord_ofDelivery (by rwa [Wire.called_note])⟩
  | running c =>
    refine c.accord_link place h (want_of_fits hfit) (fun d hs => hoffered d ?_) hw hunder hp
    simp only [delivery?, hs]

/-- An answer leaves the batch that is delivered as it is. -/
theorem delivery?_answer {a : LinkAnswer} {d' : Delivery} (hacc : e.Accord w ph)
    (hfit : a.fits e.want = true) (h : (e.answer a).delivery? = some d') :
    ∃ d, e.delivery? = some d ∧ d'.prepared.batch = d.prepared.batch ∧
      d'.prepared.frames = d.prepared.frames := by
  have hprepared {d : Delivery} (hd : d.Accord w ph) (hfit : a.fits d.want = true) :
      (d.answer a).next.prepared.batch = d.prepared.batch ∧
        (d.answer a).next.prepared.frames = d.prepared.frames := by
    obtain ⟨hbatch, hnonce, hciphertext⟩ := Delivery.prepared_turn (Delivery.turn_answer hd.1.result hfit)
    exact ⟨hbatch, by rw [PreparedBatch.frames, hnonce, hciphertext, PreparedBatch.frames]⟩
  cases e with
  | idle l => exact absurd h (by simp [answer, delivery?])
  | delivering d =>
    refine ⟨d, rfl, ?_⟩
    simp only [answer, ofDelivery] at h
    cases hr : (d.answer a).next.result with
    | none =>
      rw [hr] at h
      rw [← Option.some.inj h]
      exact hprepared hacc hfit
    | some r =>
      rw [hr] at h
      exact absurd h (by simp [delivery?])
  | running c =>
    cases hs : (c.answer (.link a)).next.stage with
    | delivering d₁ =>
      simp only [answer, delivery?, hs] at h
      obtain rfl := Option.some.inj h
      obtain ⟨d, hd, rfl⟩ := Courier.delivering_of_answer_link hs
      refine ⟨d, by simp only [delivery?, hd], ?_⟩
      simp only [Accord, Courier.Accord, hd] at hacc
      simp only [want, Courier.want, hd] at hfit
      exact hprepared hacc hfit
    | ready | preparing | checking | handing | closing | finished =>
      simp only [answer, delivery?, hs] at h
      exact absurd h (by simp)

end Engagement

namespace Desk

variable {d d' : Desk} {ph : Phase} {l : Link} {p : PreparedBatch}

/-- A desk agrees with its sockets. -/
structure Accord (d : Desk) (ph : Phase) : Prop where
  phase : d.wire.InPhase d.frames ph
  engagement : d.engagement.Accord d.wire ph
  /-- The call that is under way is the one that is wanted. -/
  under : ∀ c, d.wire.under = some c → ∃ limit, d.engagement.want = .call c limit
  /-- The batch that is delivered is the one that was offered last, and it was given last. -/
  underway : ∀ x, d.engagement.delivery? = some x →
    ∃ o, d.offered.getLast? = some o ∧ o.place = d.place ∧ o.prepared.batch = x.prepared.batch ∧
      o.prepared.frames = x.prepared.frames

theorem Accord.frames_mem (h : d.Accord ph) {x : Delivery} (hx : d.engagement.delivery? = some x) :
    x.prepared.frames ∈ d.frames := by
  obtain ⟨o, ho, -, -, hframes⟩ := h.underway x hx
  rw [← hframes]
  exact List.mem_map_of_mem (List.mem_of_getLast? ho)

/-- No call is under way when none is wanted. -/
theorem Accord.under_eq_none (h : d.Accord ph) (hw : ∀ c limit, d.engagement.want ≠ .call c limit) :
    d.wire.under = none := by
  cases hu : d.wire.under with
  | none => rfl
  | some c =>
    obtain ⟨limit, hwant⟩ := h.under c hu
    exact absurd hwant (hw c limit)

theorem frames_append (offered : List Offer) (o : Offer) {f : Frames}
    (h : f ∈ offered.map fun o => o.prepared.frames) :
    f ∈ (offered ++ [o]).map fun o => o.prepared.frames := by
  rw [List.map_append]
  exact List.mem_append_left _ h

theorem accord_begin (h : d.Accord ph) (he : d.engagement = .idle l) (p : PreparedBatch) :
    (d.begin l p).Accord ph := by
  have hu := h.under_eq_none (by simp [he, Engagement.want])
  have hrests := h.engagement
  rw [he] at hrests
  refine ⟨h.phase.offer fun f hf => frames_append _ _ hf, ?_, ?_, ?_⟩
  · exact Engagement.accord_ofDelivery (.inl ⟨rfl, Delivery.accord_start hrests hu⟩)
  · intro c hc
    exact absurd (hc.symm.trans hu) (by simp)
  · intro x hx
    obtain rfl := Option.some.inj hx
    refine ⟨⟨d.given.length, p⟩, by simp [begin], ?_, rfl, rfl⟩
    simp [begin, place]

@[simp] theorem answerQueue_frame (d : Desk) (c : Courier) (a : CourierAnswer) :
    (d.answerQueue c a).wire = d.wire ∧ (d.answerQueue c a).engagement = .running (c.answer a).next := by
  unfold answerQueue
  dsimp only
  split <;> exact ⟨rfl, rfl⟩

theorem frames_answerQueue (d : Desk) (c : Courier) (a : CourierAnswer) {f : Frames}
    (h : f ∈ d.frames) : f ∈ (d.answerQueue c a).frames := by
  unfold answerQueue
  dsimp only
  split
  · exact h
  · exact frames_append _ _ h
  · exact h

/-- A queue that answers does so while no call is under way. -/
theorem Accord.under_of_queue {a : CourierAnswer} {c : Courier} (h : d.Accord ph)
    (he : d.engagement = .running c) (ha : a.possible d.wire.called c.want = true) :
    d.wire.under = none := by
  refine h.under_eq_none ?_
  intro x limit hwant
  simp only [he, Engagement.want] at hwant
  cases hw : c.want with
  | link w =>
    rw [hw] at ha
    exact absurd ha (by cases a <;> simp [CourierAnswer.possible])
  | batch | nonce | probe | room | nothing =>
    rw [hw] at hwant
    exact absurd hwant (by simp)

theorem accord_queue {a : CourierAnswer} {c : Courier} (h : d.Accord ph)
    (he : d.engagement = .running c) (ha : a.possible d.wire.called c.want = true) :
    (d.answerQueue c a).Accord ph := by
  have hu := h.under_of_queue he ha
  have hacc := h.engagement
  rw [he] at hacc
  obtain ⟨hwire, hengagement⟩ := answerQueue_frame d c a
  refine ⟨?_, ?_, ?_, ?_⟩
  · rw [hwire]
    exact h.phase.offer fun f hf => frames_answerQueue d c a hf
  · rw [hwire, hengagement]
    exact Courier.accord_queue hacc hu (Courier.answered_of_possible ha)
  · intro x hx
    rw [hwire] at hx
    exact absurd (hx.symm.trans hu) (by simp)
  · intro x hx
    have hstage : (c.answer a).next.stage = .delivering x := by
      rw [hengagement] at hx
      exact Engagement.stage_of_delivery? hx
    obtain ⟨l, b, bs, hs, rfl, rfl⟩ := (Courier.answered_of_possible ha).preparing hstage
    refine ⟨⟨d.place, .ofBatch b c.box bs⟩, ?_, ?_, rfl, rfl⟩
    · simp only [answerQueue, hs, List.getLast?_append, List.getLast?_singleton, Option.some_or]
      rfl
    · simp only [answerQueue, hs, place]

/-- **Every step keeps a desk and its sockets in accord.** -/
theorem accord_move? {e : Errand} (h : d.Accord ph) (hm : d.move? e = some d') :
    ∃ ph', d'.Accord ph' := by
  cases e with
  | callOff =>
    obtain rfl := Option.some.inj hm
    exact ⟨ph, h.phase.callOff, h.engagement.mono (fun _ => rfl) fun hs => ⟨rfl, hs.2⟩, h.under,
      h.underway⟩
  | publish b nonce =>
    simp only [move?] at hm
    cases he : d.engagement with
    | idle l =>
      simp only [he] at hm
      split at hm
      · obtain rfl := Option.some.inj hm
        have hacc := h.engagement
        have hunder := h.under
        rw [he] at hacc hunder
        exact ⟨ph, h.phase, hacc, hunder, fun x hx => absurd hx (by simp [Engagement.delivery?])⟩
      · split at hm
        · obtain rfl := Option.some.inj hm
          exact ⟨ph, accord_begin h he _⟩
        · exact absurd hm (by simp)
    | delivering | running => simp only [he] at hm; exact absurd hm (by simp)
  | deliver p =>
    simp only [move?] at hm
    cases he : d.engagement with
    | idle l =>
      simp only [he] at hm
      obtain rfl := Option.some.inj hm
      exact ⟨ph, accord_begin h he p⟩
    | delivering | running => simp only [he] at hm; exact absurd hm (by simp)
  | run =>
    simp only [move?] at hm
    cases he : d.engagement with
    | idle l =>
      simp only [he] at hm
      obtain rfl := Option.some.inj hm
      have hu := h.under_eq_none (by simp [he, Engagement.want])
      have hacc := h.engagement
      rw [he] at hacc
      refine ⟨ph, h.phase, hacc, ?_, ?_⟩
      · intro x hx
        exact absurd (hx.symm.trans hu) (by simp)
      · intro x hx
        exact absurd hx (by simp [Engagement.delivery?, Courier.start])
    | delivering | running => simp only [he] at hm; exact absurd hm (by simp)
  | queue a =>
    simp only [move?] at hm
    cases he : d.engagement with
    | running c =>
      simp only [he] at hm
      split at hm
      next ha =>
        obtain rfl := Option.some.inj hm
        exact ⟨ph, accord_queue h he ha⟩
      next => exact absurd hm (by simp)
    | idle | delivering => simp only [he] at hm; exact absurd hm (by simp)
  | call =>
    obtain ⟨w, hw, rfl⟩ := Option.map_eq_some_iff.1 hm
    obtain ⟨c, limit, hwant, hcalled, rfl⟩ := Wire.of_begin? hw
    refine ⟨ph, h.phase.congr rfl rfl, h.engagement.mono id ?_, ?_, h.underway⟩
    · intro hs
      exact absurd (hcalled.symm.trans hs.1) (by simp)
    · intro x hx
      obtain rfl := Option.some.inj hx
      exact ⟨limit, hwant⟩
  | link a =>
    simp only [move?] at hm
    split at hm
    next hp =>
      obtain rfl := Option.some.inj hm
      obtain ⟨ph', hphase, hacc⟩ := Engagement.accord_answer d.place h.engagement
        (fun x hx => h.frames_mem hx) h.phase h.under hp
      refine ⟨ph', hphase, hacc, ?_, ?_⟩
      · intro x hx
        exact absurd (hx.symm.trans (Wire.under_note hp h.under)) (by simp)
      · intro x hx
        obtain ⟨y, hy, hbatch, hframes⟩ := Engagement.delivery?_answer h.engagement (Wire.fits_of_possible hp) hx
        obtain ⟨o, ho, hplace, hob, hof⟩ := h.underway y hy
        exact ⟨o, ho, hplace, hob.trans hbatch.symm, hof.trans hframes.symm⟩
    next => exact absurd hm (by simp)

theorem accord_start (keys : Keys) {l : Link} (hl : l.session = none) :
    (start keys l).Accord .closed := by
  refine ⟨⟨fun _ => rfl, ?_, ?_, ?_⟩, ?_, by simp [start], by simp [start, Engagement.delivery?]⟩
  · simp [start]
  · simp [start]
  · simp [start, Wire.called]
  show l.Rests false .closed
  rw [Link.Rests, hl]

theorem accord_run? {es : List Errand} (h : d.run? es = some d') (hd : ∃ ph, d.Accord ph) :
    ∃ ph, d'.Accord ph :=
  runSteps_induction (P := fun d => ∃ ph, d.Accord ph) (fun _ _ _ ⟨_, hacc⟩ hm => accord_move? hacc hm) h hd

end Desk

end LogRelay
