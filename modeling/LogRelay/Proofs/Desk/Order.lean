import LogRelay.Proofs.Desk.Grammar
import LogRelay.Proofs.Wire.Tally
import Mathlib.Data.List.Destutter

/-!
# The order of the messages

A courier sends each batch at least once, and none after a later one.

* `Desk.Ordered`, `Desk.ordered_move?`: batches are offered in the order in which they were given,
  messages are sent in the order of the offers, and every reply is one to a message; every step
  keeps this;
* `Desk.sent_in_order`: at least one message for each acknowledged batch, in the order of the
  batches, with all copies of a batch next to each other and the same;
* `Desk.sent_in_order_resent`: a run with a lost reply.
-/

namespace LogRelay

/-! ### Collapsing repetitions -/

theorem mem_destutter'_ne {l : List Nat} {k n : Nat} (h : n ∈ k :: l) :
    n ∈ l.destutter' (· ≠ ·) k := by
  induction l generalizing k with
  | nil => exact h
  | cons i l ih =>
    by_cases hki : k ≠ i
    · rw [List.destutter'_cons_pos (h := hki)]
      rcases List.mem_cons.1 h with rfl | h
      · exact List.mem_cons_self
      · exact List.mem_cons_of_mem k (ih h)
    · obtain rfl : k = i := not_not.1 hki
      rw [List.destutter'_cons_neg (h := hki)]
      rcases List.mem_cons.1 h with rfl | h
      · exact ih List.mem_cons_self
      · exact ih h

/-- Collapsing repetitions keeps one of each. -/
theorem mem_destutter_ne {l : List Nat} {n : Nat} (h : n ∈ l) : n ∈ l.destutter (· ≠ ·) := by
  cases l with
  | nil => exact absurd h List.not_mem_nil
  | cons k l =>
    rw [List.destutter_cons']
    exact mem_destutter'_ne h

/-- Collapsing the repetitions of an ascending list makes it strictly ascending. -/
theorem pairwise_destutter_ne {l : List Nat} (h : l.Pairwise (· ≤ ·)) :
    (l.destutter (· ≠ ·)).Pairwise (· < ·) := by
  have hle := (h.sublist (List.destutter_sublist (· ≠ ·) l)).isChain
  have hne := List.isChain_destutter (· ≠ ·) l
  rw [List.isChain_iff_forall_rel_of_append_cons_cons] at hle hne
  have hlt : (l.destutter (· ≠ ·)).IsChain (· < ·) :=
    List.isChain_iff_forall_rel_of_append_cons_cons.2 fun _ _ _ _ heq =>
      lt_of_le_of_ne (hle heq) (hne heq)
  exact hlt.pairwise

/-! ### What goes out -/

namespace Desk

variable {d d' : Desk} {ph : Phase} {box : Box} {c : Courier} {l : Link} {b : Batch}

/-- A message that is about to be finished is one of the batch that was given last. -/
theorem Accord.message_of_under {frame : Bytes} (h : d.Accord ph)
    (hu : d.wire.under = some (.send frame false)) :
    ∃ o ∈ d.offered, o.place = d.place ∧
      (assembled d.wire.latest).held ++ [frame] = o.prepared.frames.message := by
  obtain ⟨x, limit, hx, haccord, hwant⟩ := h.delivery_of_under hu
  obtain ⟨o, ho, hplace, -, hframes⟩ := h.underway x hx
  refine ⟨o, List.mem_of_getLast? ho, hplace, ?_⟩
  rw [Delivery.want, haccord.1.result] at hwant
  rcases haccord.2.begun haccord.1.goal rfl hwant hu with ⟨-, address, hno⟩ | ⟨hph, hcall⟩
  · exact absurd hno (by simp)
  · cases hleg : x.leg with
    | nonce | reply =>
      rw [hleg] at hcall
      exact absurd hcall (by simp [Leg.call])
    | ciphertext =>
      rw [hleg] at hcall hph
      have hframe : frame = x.prepared.frames.ciphertext := (Call.send.inj hcall).1
      have hph : ph = .nonceOut x.prepared.frames := hph
      cases hs : d.wire.sockets with
      | nil => exact absurd (hph.symm.trans (h.phase.unopened hs)) (by simp)
      | cons log rest =>
        have hlatest : d.wire.latest = log := by rw [Wire.latest, hs, List.headD_cons]
        have htraffic := h.phase.latest log rest hs
        rw [hph] at htraffic
        rw [hlatest, held_of_traffic htraffic rfl, hframe, hframes]
        rfl

/-- A reply is awaited only when a message is the last thing that the socket has taken. -/
theorem Accord.hasTaken_of_receive (h : d.Accord ph) (hu : d.wire.under = some .receive) :
    d.wire.HasTaken ∧ d.engagement.delivery?.isSome = true := by
  obtain ⟨x, limit, hx, haccord, hwant⟩ := h.delivery_of_under hu
  have hph := Delivery.awaiting_of_receive haccord hwant hu
  refine ⟨?_, by rw [hx]; rfl⟩
  cases hs : d.wire.sockets with
  | nil => exact absurd (hph.symm.trans (h.phase.unopened hs)) (by simp)
  | cons log rest =>
    have hparts := parts_of_traffic (h.phase.latest log rest hs)
    rw [hph] at hparts
    obtain ⟨base, y, z, -, -, hlog⟩ := hparts
    refine ⟨x.prepared.frames.ciphertext, z, ?_⟩
    rw [Wire.latest, hs, List.headD_cons, hlog]
    simp

/-- Between two rounds no message is the last thing that the socket has taken. -/
theorem Accord.not_hasTaken (h : d.Accord ph) (hph : ph = .closed ∨ ph = .ready) :
    ¬d.wire.HasTaken := by
  rintro ⟨frame, x, hlast⟩
  cases hs : d.wire.sockets with
  | nil =>
    rw [Wire.latest, hs] at hlast
    exact absurd hlast (by simp)
  | cons log rest =>
    rw [Wire.latest, hs, List.headD_cons] at hlast
    have hends := ends_of_traffic (h.phase.latest log rest hs) hlast
    rcases hph with rfl | rfl
    · exact absurd hends (by simp [Phase.Ends])
    · rcases hends.2 with hno | hno
      · exact absurd hno (by simp [Entry.isConnect])
      · exact absurd hno (by simp [Entry.call?])

/-! ### The order of offers and messages -/

/-- A courier offers batches in the order in which they were given, and its messages go out in the
order of the offers. -/
structure Ordered (box : Box) (d : Desk) : Prop where
  running : ∃ c, d.engagement = .running c ∧ c.box = box
  /-- An offer is one of a batch that was given and is not empty. -/
  offers : ∀ o ∈ d.offered, ∃ b nonce, d.given[o.place]? = some b ∧ b.isEmpty = false ∧
    o.prepared = .ofBatch b box nonce
  /-- Each batch is offered once, in its turn. -/
  places : (d.offered.map Offer.place).Pairwise (· < ·)
  /-- A batch that gets its wire form has not been offered. -/
  fresh : ∀ c l b, d.engagement = .running c → c.stage = .preparing l b →
    d.given[d.place]? = some b ∧ b.isEmpty = false ∧ ∀ o ∈ d.offered, o.place < d.place
  /-- A message is one of a batch that was offered. -/
  messages : ∀ m ∈ d.wire.sent, ∃ o ∈ d.offered, m = ⟨o.place, o.prepared.frames.message⟩
  /-- No message goes out after one of a later batch. -/
  sorted : (d.wire.sent.map Message.place).Pairwise (· ≤ ·)
  /-- A reply that can come is one to a message of the batch that is being delivered. -/
  taken : d.wire.called = false → d.wire.HasTaken → d.engagement.delivery?.isSome = true →
    ∃ m ∈ d.wire.sent, m.place = d.place
  /-- A reply that has come was one to a message. -/
  acknowledged : ∀ n ∈ d.wire.acknowledged, ∃ m ∈ d.wire.sent, m.place = n
  /-- A batch that counts as delivered is empty or acknowledged. -/
  settled : ∀ c l b, d.engagement = .running c → c.stage = .checking l b →
    d.given[d.place]? = some b ∧ (b.isEmpty = true ∨ d.place ∈ d.wire.acknowledged)
  /-- The messages are those that the sockets have taken. -/
  tallied : d.wire.Tallied

/-- The courier seals all batches with the same keys. -/
theorem Ordered.box_eq (h : d.Ordered box) (he : d.engagement = .running c) : c.box = box := by
  obtain ⟨c', he', hbox⟩ := h.running
  rw [Engagement.running.inj (he.symm.trans he')]
  exact hbox

theorem Ordered.place_lt (h : d.Ordered box) {o : Offer} (ho : o ∈ d.offered) :
    o.place < d.given.length := by
  obtain ⟨b, nonce, hb, -, -⟩ := h.offers o ho
  exact (List.getElem?_eq_some_iff.1 hb).1

/-- The courier goes on without a batch. -/
theorem Ordered.goOn (h : d.Ordered box) (hbox : c.box = box) (hp : ∀ l b, c.stage ≠ .preparing l b)
    (hd : ∀ x, c.stage ≠ .delivering x) (hc : ∀ l b, c.stage ≠ .checking l b) :
    ({ d with engagement := .running c } : Desk).Ordered box where
  running := ⟨c, rfl, hbox⟩
  offers := h.offers
  places := h.places
  fresh := by
    rintro c' l b he hs
    obtain rfl := Engagement.running.inj he
    exact absurd hs (hp l b)
  messages := h.messages
  sorted := h.sorted
  taken := by
    intro _ _ hx
    obtain ⟨x, hx⟩ := Option.isSome_iff_exists.1 hx
    exact absurd (Engagement.stage_of_delivery? hx) (hd x)
  acknowledged := h.acknowledged
  settled := by
    rintro c' l b he hs
    obtain rfl := Engagement.running.inj he
    exact absurd hs (hc l b)
  tallied := h.tallied

/-- The courier has come to something. -/
theorem Ordered.stop {r : Except PublishFault Unit} (h : d.Ordered box) (hbox : c.box = box)
    (hv : c.verdict? = some r) : ({ d with engagement := .running c } : Desk).Ordered box := by
  obtain ⟨hp, hc⟩ := Courier.stage_of_verdict? hv
  exact h.goOn hbox hp (Courier.of_verdict? hv).2.2 hc

/-- One more batch is given to the courier. -/
theorem Ordered.give (h : d.Ordered box) (hbox : c.box = box) (l : Link) (b : Batch)
    (hs : c.stage = if b.isEmpty then .checking l b else .preparing l b) :
    ({ d with engagement := .running c, given := d.given ++ [b] } : Desk).Ordered box := by
  have hplace : (d.given ++ [b]).length - 1 = d.given.length := by
    rw [List.length_append, List.length_singleton]
    omega
  refine ⟨⟨c, rfl, hbox⟩, ?_, h.places, ?_, h.messages, h.sorted, ?_, h.acknowledged, ?_, h.tallied⟩
  · intro o ho
    obtain ⟨b', nonce, hb', hempty, hprepared⟩ := h.offers o ho
    refine ⟨b', nonce, ?_, hempty, hprepared⟩
    show (d.given ++ [b])[o.place]? = some b'
    rw [List.getElem?_append_left (h.place_lt ho), hb']
  · intro c' l' b' he hs'
    obtain rfl := Engagement.running.inj he
    rw [hs] at hs'
    split at hs'
    · exact absurd hs' (by simp)
    next hempty =>
      obtain ⟨-, rfl⟩ := CourierStage.preparing.inj hs'
      refine ⟨?_, by simpa using hempty, ?_⟩
      · show (d.given ++ [b])[(d.given ++ [b]).length - 1]? = some b
        rw [hplace, List.getElem?_concat_length]
      · intro o ho
        show o.place < (d.given ++ [b]).length - 1
        rw [hplace]
        exact h.place_lt ho
  · intro _ _ hx
    obtain ⟨x, hx⟩ := Option.isSome_iff_exists.1 hx
    have hno := hs.symm.trans (Engagement.stage_of_delivery? hx)
    split at hno <;> exact absurd hno (by simp)
  · intro c' l' b' he hs'
    obtain rfl := Engagement.running.inj he
    rw [hs] at hs'
    split at hs'
    next hempty =>
      obtain ⟨-, rfl⟩ := CourierStage.checking.inj hs'
      refine ⟨?_, .inl hempty⟩
      show (d.given ++ [b])[(d.given ++ [b]).length - 1]? = some b
      rw [hplace, List.getElem?_concat_length]
    next => exact absurd hs' (by simp)

/-- A batch gets its wire form, and is offered. -/
theorem Ordered.offer (h : d.Ordered box) (hacc : d.Accord ph) (he : d.engagement = .running c)
    (hs : c.stage = .preparing l b) (bs : Bytes) :
    ({ d with
        engagement := .running { c with stage := .delivering (Delivery.start l (.ofBatch b c.box bs)).next }
        offered := d.offered ++ [⟨d.place, .ofBatch b c.box bs⟩] } : Desk).Ordered box := by
  obtain ⟨hgiven, hempty, hearlier⟩ := h.fresh c l b he hs
  have hbox := h.box_eq he
  refine ⟨⟨_, rfl, hbox⟩, ?_, ?_, ?_, ?_, h.sorted, ?_, h.acknowledged, ?_, h.tallied⟩
  · intro o ho
    rcases List.mem_append.1 ho with ho | ho
    · exact h.offers o ho
    · obtain rfl := List.mem_singleton.1 ho
      exact ⟨b, bs, hgiven, hempty, by rw [hbox]⟩
  · rw [List.map_append, List.pairwise_append]
    refine ⟨h.places, List.pairwise_singleton _ _, ?_⟩
    intro n hn k hk
    obtain ⟨o, ho, rfl⟩ := List.mem_map.1 hn
    obtain rfl := List.mem_singleton.1 hk
    exact hearlier o ho
  · intro c' l' b' he' hs'
    obtain rfl := Engagement.running.inj he'
    exact absurd hs' (by simp)
  · intro m hm
    obtain ⟨o, ho, hm⟩ := h.messages m hm
    exact ⟨o, List.mem_append_left _ ho, hm⟩
  · intro hcalled htaken _
    -- no round is under way when a delivery begins
    have hrests := hacc.engagement
    simp only [he, Engagement.Accord, Courier.Accord, hs] at hrests
    have hcalled : d.wire.called = false := hcalled
    rcases hrests.settled with hno | hph
    · exact absurd (hcalled.symm.trans hno) (by simp)
    · exact absurd htaken (hacc.not_hasTaken hph)
  · intro c' l' b' he' hs'
    obtain rfl := Engagement.running.inj he'
    exact absurd hs' (by simp)

/-- The queues answer. -/
theorem ordered_queue {a : CourierAnswer} (h : d.Ordered box) (hacc : d.Accord ph)
    (he : d.engagement = .running c) (ha : a.possible d.wire.called c.want = true) :
    (d.answerQueue c a).Ordered box := by
  have hbox : (c.answer a).next.box = box := (Courier.box_answer c a).trans (h.box_eq he)
  have ht := Courier.answered_of_possible ha
  unfold answerQueue
  generalize (c.answer a).next = c' at hbox ht ⊢
  cases ht with
  | took hs b => exact h.give hbox _ b rfl
  | @ended l hs t hnone notices =>
    have hordered := h.stop hbox (Courier.verdict?_wrapUp c notices l (.ok ()))
    cases t with
    | item b => exact absurd rfl (hnone b)
    | closed | cancelled => exact hordered
  | prepared hs bs =>
    simp only [hs]
    exact h.offer hacc he hs bs
  | probed hs gone =>
    simp only
    refine h.goOn hbox ?_ ?_ ?_ <;> cases gone <;> simp
  | handed hs t =>
    simp only
    exact h.goOn hbox (by simp) (by simp) (by simp)

/-- A message that goes out, or a reply that comes in, is one of the batch that was given last. -/
theorem Ordered.noted {a : LinkAnswer} (h : d.Ordered box) (hacc : d.Accord ph)
    (hp : d.wire.possible d.engagement.want a = true) :
    (∀ m ∈ (d.wire.note d.place a).sent,
        ∃ o ∈ d.offered, m = ⟨o.place, o.prepared.frames.message⟩) ∧
      ((d.wire.note d.place a).sent.map Message.place).Pairwise (· ≤ ·) ∧
      (d.wire.called = false → (d.wire.note d.place a).HasTaken →
        d.engagement.delivery?.isSome = true →
        ∃ m ∈ (d.wire.note d.place a).sent, m.place = d.place) ∧
      ∀ n ∈ (d.wire.note d.place a).acknowledged,
        ∃ m ∈ (d.wire.note d.place a).sent, m.place = n := by
  cases Wire.noted d.wire d.place a with
  | message frame x hu ha hs hk =>
    obtain ⟨o, ho, hplace, hframes⟩ := hacc.message_of_under hu
    rw [hframes] at hs
    rw [hs, hk]
    refine ⟨?_, ?_, ?_, ?_⟩
    · intro m hm
      rcases List.mem_append.1 hm with hm | hm
      · exact h.messages m hm
      · exact ⟨o, ho, by rw [List.mem_singleton.1 hm, hplace]⟩
    · rw [List.map_append, List.pairwise_append]
      refine ⟨h.sorted, List.pairwise_singleton _ _, ?_⟩
      intro n hn k hk
      obtain ⟨m, hm, rfl⟩ := List.mem_map.1 hn
      obtain rfl := List.mem_singleton.1 hk
      obtain ⟨o', ho', rfl⟩ := h.messages m hm
      have hlt := h.place_lt ho'
      show o'.place ≤ d.given.length - 1
      omega
    · intro _ _ _
      exact ⟨_, List.mem_append_right _ (List.mem_singleton_self _), rfl⟩
    · intro n hn
      obtain ⟨m, hm, hn⟩ := h.acknowledged n hn
      exact ⟨m, List.mem_append_left _ hm, hn⟩
  | reply x hu ha hs hk =>
    rw [hs, hk]
    subst ha
    obtain ⟨htaken, hx⟩ := hacc.hasTaken_of_receive hu
    obtain ⟨m, hm, hplace⟩ := h.taken (Wire.of_possible_done hp).1 htaken hx
    refine ⟨h.messages, h.sorted, fun _ _ _ => ⟨m, hm, hplace⟩, ?_⟩
    intro n hn
    rcases List.mem_append.1 hn with hn | hn
    · exact h.acknowledged n hn
    · exact ⟨m, hm, hplace.trans (List.mem_singleton.1 hn).symm⟩
  | nothing hs hk ht =>
    rw [hs, hk]
    exact ⟨h.messages, h.sorted, fun hc htaken hx => h.taken hc (ht htaken) hx, h.acknowledged⟩

/-- A batch that counts as delivered after an answer of the link is acknowledged by it. -/
theorem Ordered.settled_answer {a : LinkAnswer} (h : d.Ordered box) (hacc : d.Accord ph)
    (he : d.engagement = .running c) (hp : d.wire.possible d.engagement.want a = true)
    (hs : (c.answer (.link a)).next.stage = .checking l b) :
    d.given[d.place]? = some b ∧ d.place ∈ (d.wire.note d.place a).acknowledged := by
  have hfit := Wire.fits_of_possible hp
  have hcall := Wire.called_of_isCallOff hp
  have hsound : c.Sound d.wire.called := by
    intro x hs
    have haccord := hacc.engagement
    simp only [he, Engagement.Accord, Courier.Accord, hs] at haccord
    exact haccord.1
  rw [he] at hfit
  obtain ⟨x, limit, reply, hstage, rfl, hwant, rfl⟩ :=
    Courier.receive_of_checking hsound (Engagement.want_of_fits hfit) hfit hcall hs
  refine ⟨?_, ?_⟩
  · have hx : d.engagement.delivery? = some x := by simp only [he, Engagement.delivery?, hstage]
    obtain ⟨o, ho, hplace, hbatch, -⟩ := hacc.underway x hx
    obtain ⟨b, nonce, hb, -, hprepared⟩ := h.offers o (List.mem_of_getLast? ho)
    rw [hplace] at hb
    rw [← hbatch, hprepared]
    exact hb
  · have hu : d.wire.under = some .receive := by
      obtain ⟨-, call, hu⟩ := Wire.of_possible_done hp
      obtain ⟨limit', hcall'⟩ := hacc.under call hu
      rw [he] at hcall'
      rw [hu, (LinkWant.call.inj (hcall'.symm.trans hwant)).1]
    rw [Wire.acknowledged_of_reply hu]
    exact List.mem_append_right _ (List.mem_singleton_self _)

theorem ordered_link {a : LinkAnswer} (h : d.Ordered box) (hacc : d.Accord ph)
    (hp : d.wire.possible d.engagement.want a = true) :
    ({ d with engagement := d.engagement.answer a, wire := d.wire.note d.place a } :
      Desk).Ordered box := by
  obtain ⟨c, he, hbox⟩ := h.running
  have hfit := Wire.fits_of_possible hp
  have hanswer : d.engagement.answer a = .running (c.answer (.link a)).next := by
    rw [he]
    rfl
  have hdelivery : (d.engagement.answer a).delivery?.isSome = true →
      d.engagement.delivery?.isSome = true := by
    intro hx
    obtain ⟨x, hx⟩ := Option.isSome_iff_exists.1 hx
    obtain ⟨y, hy, -⟩ := Engagement.delivery?_answer hacc.engagement hfit hx
    rw [hy]
    rfl
  obtain ⟨hmessages, hsorted, htaken, hacknowledged⟩ := h.noted hacc hp
  refine ⟨⟨_, hanswer, (Courier.box_answer c _).trans hbox⟩, h.offers, h.places, ?_, hmessages,
    hsorted, ?_, hacknowledged, ?_, Wire.tallied_note h.tallied hacc.under_of_sockets d.place a⟩
  · intro c' l' b' he' hs
    obtain rfl := Engagement.running.inj (hanswer.symm.trans he')
    rw [he] at hfit
    exact absurd hs (Courier.not_preparing_of_answer_link (Engagement.want_of_fits hfit))
  · intro hc ht hx
    rw [Wire.called_note] at hc
    exact htaken hc ht (hdelivery hx)
  · intro c' l' b' he' hs
    obtain rfl := Engagement.running.inj (hanswer.symm.trans he')
    obtain ⟨hgiven, hacked⟩ := h.settled_answer hacc he hp hs
    exact ⟨hgiven, .inr hacked⟩

/-- **Every step of a courier keeps the order.** -/
theorem ordered_move? {e : Errand} (h : d.Ordered box) (hacc : d.Accord ph) (hm : d.move? e = some d') :
    d'.Ordered box := by
  obtain ⟨c, he, hbox⟩ := h.running
  cases e with
  | callOff =>
    obtain rfl := Option.some.inj hm
    exact ⟨h.running, h.offers, h.places, h.fresh, h.messages, h.sorted,
      fun hno => absurd hno (by simp), h.acknowledged, h.settled, h.tallied⟩
  | publish | deliver | run =>
    simp only [move?, he] at hm
    exact absurd hm (by simp)
  | queue a =>
    simp only [move?, he] at hm
    split at hm
    next ha =>
      obtain rfl := Option.some.inj hm
      exact ordered_queue h hacc he ha
    next => exact absurd hm (by simp)
  | call =>
    obtain ⟨w, hw, rfl⟩ := Option.map_eq_some_iff.1 hm
    obtain ⟨call, limit, -, -, rfl⟩ := Wire.of_begin? hw
    exact ⟨h.running, h.offers, h.places, h.fresh, h.messages, h.sorted, h.taken, h.acknowledged,
      h.settled, h.tallied⟩
  | link a =>
    simp only [move?] at hm
    split at hm
    next hp =>
      obtain rfl := Option.some.inj hm
      exact ordered_link h hacc hp
    next => exact absurd hm (by simp)

/-- A courier that has just taken over has done nothing yet. -/
theorem ordered_start (keys : Keys) (l : Link) :
    ({ start keys l with engagement := .running (Courier.start keys l) } : Desk).Ordered (Box.ofKeys keys) where
  running := ⟨_, rfl, rfl⟩
  offers := by simp [start]
  places := .nil
  fresh := by
    rintro c l b he hs
    obtain rfl := Engagement.running.inj he
    exact absurd hs (by simp [Courier.start])
  messages := by simp [start]
  sorted := .nil
  taken := by simp [Engagement.delivery?, Courier.start]
  acknowledged := by simp [start]
  settled := by
    rintro c l b he hs
    obtain rfl := Engagement.running.inj he
    exact absurd hs (by simp [Courier.start])
  tallied := rfl

/-! ### Runs -/

theorem given_answerQueue (d : Desk) (c : Courier) (a : CourierAnswer) :
    (d.answerQueue c a).given = d.given ++ (Errand.queue a).taken?.toList := by
  have hnone : d.given = d.given ++ (none : Option Batch).toList := (List.append_nil _).symm
  cases a with
  | took t =>
    cases t with
    | item b =>
      simp only [answerQueue]
      rfl
    | closed | cancelled =>
      simp only [answerQueue]
      exact hnone
  | nonce bs =>
    cases hs : c.stage with
    | ready | preparing | delivering | checking | handing | closing | finished =>
      simp only [answerQueue, hs]
      exact hnone
  | link | probed | handed =>
    simp only [answerQueue]
    exact hnone

theorem given_move? {e : Errand} (he : ∃ c, d.engagement = .running c) (hm : d.move? e = some d') :
    d'.given = d.given ++ e.taken?.toList ∧ ∃ c, d'.engagement = .running c := by
  obtain ⟨c, he⟩ := he
  cases e with
  | callOff =>
    obtain rfl := Option.some.inj hm
    exact ⟨(List.append_nil _).symm, c, he⟩
  | publish | deliver | run =>
    simp only [move?, he] at hm
    exact absurd hm (by simp)
  | queue a =>
    simp only [move?, he] at hm
    split at hm
    next ha =>
      obtain rfl := Option.some.inj hm
      exact ⟨given_answerQueue d c a, _, (answerQueue_frame d c a).2⟩
    next => exact absurd hm (by simp)
  | call =>
    obtain ⟨w, -, rfl⟩ := Option.map_eq_some_iff.1 hm
    exact ⟨(List.append_nil _).symm, c, he⟩
  | link a =>
    simp only [move?] at hm
    split at hm
    next hp =>
      obtain rfl := Option.some.inj hm
      exact ⟨(List.append_nil _).symm, (c.answer (.link a)).next, by rw [he]; rfl⟩
    next => exact absurd hm (by simp)

/-- The batches that were given are those that the courier has taken. -/
theorem given_run? {es : List Errand} (he : ∃ c, d.engagement = .running c) (h : d.run? es = some d') :
    d'.given = d.given ++ es.filterMap Errand.taken? := by
  induction es generalizing d with
  | nil =>
    obtain rfl := Option.some.inj h
    exact (List.append_nil _).symm
  | cons e es ih =>
    obtain ⟨d₁, hm, h⟩ := Option.bind_eq_some_iff.1 h
    obtain ⟨hgiven, he₁⟩ := given_move? he hm
    rw [ih he₁ h, hgiven, List.append_assoc]
    cases ht : e.taken? with
    | none => rw [List.filterMap_cons_none ht]; rfl
    | some b => rw [List.filterMap_cons_some ht]; rfl

variable {keys : Keys} {settings : LinkSettings} {es : List Errand}

theorem ordered_run? (hl : Link.ofSettings settings = .ok l)
    (h : (start keys l).run? (.run :: es) = some d) :
    d.Ordered (Box.ofKeys keys) ∧ d.given = es.filterMap Errand.taken? := by
  obtain ⟨d₁, hm, h⟩ := Option.bind_eq_some_iff.1 h
  have hacc := accord_move? (accord_start keys (session_of_ofSettings hl)) hm
  obtain rfl := Option.some.inj hm
  -- the order is kept only together with the accord: without it a reply might be one to nothing
  have hrun : (∃ ph, d.Accord ph) ∧ d.Ordered (Box.ofKeys keys) := by
    refine runSteps_induction (P := fun d => (∃ ph, d.Accord ph) ∧ d.Ordered (Box.ofKeys keys)) ?_ h
      ⟨hacc, ordered_start keys l⟩
    rintro e d d' ⟨⟨ph, hacc⟩, hordered⟩ hm
    exact ⟨accord_move? hacc hm, ordered_move? hordered hacc hm⟩
  exact ⟨hrun.2, given_run? ⟨_, rfl⟩ h⟩

/-- Two messages of one batch are copies of each other. -/
theorem Ordered.frames_eq (h : d.Ordered box) {m m' : Message} (hm : m ∈ d.wire.sent)
    (hm' : m' ∈ d.wire.sent) (hplace : m.place = m'.place) : m.frames = m'.frames := by
  obtain ⟨o, ho, rfl⟩ := h.messages m hm
  obtain ⟨o', ho', rfl⟩ := h.messages m' hm'
  have hnodup : (d.offered.map Offer.place).Nodup := h.places.imp ne_of_lt
  rw [List.inj_on_of_nodup_map hnodup ho ho' hplace]

/-- **A courier sends each batch at least once, and none after a later one.**  The messages that all
sockets together have taken, without their repetitions, are in the order in which the courier has
taken the batches from its queue; each acknowledged batch is among them, and every batch that counts
as delivered is acknowledged or empty; each message is the wire form of its batch, the same at each
repetition. -/
theorem sent_in_order (hl : Link.ofSettings settings = .ok l)
    (h : (start keys l).run? (.run :: es) = some d) :
    d.given = es.filterMap Errand.taken? ∧
      d.wire.sent.map Message.frames
        = d.wire.logs.reverse.flatMap (fun log => (assembled log).messages) ∧
      ((d.wire.sent.map Message.place).destutter (· ≠ ·)).Pairwise (· < ·) ∧
      (∀ n ∈ d.wire.acknowledged, n ∈ (d.wire.sent.map Message.place).destutter (· ≠ ·)) ∧
      (∀ c l b, d.engagement = .running c → c.stage = .checking l b →
        d.given[d.place]? = some b ∧ (b.isEmpty = true ∨ d.place ∈ d.wire.acknowledged)) ∧
      (∀ m ∈ d.wire.sent, ∃ b nonce, d.given[m.place]? = some b ∧ b.isEmpty = false ∧
        m.frames = (PreparedBatch.ofBatch b (Box.ofKeys keys) nonce).frames.message) ∧
      ∀ m ∈ d.wire.sent, ∀ m' ∈ d.wire.sent, m.place = m'.place → m.frames = m'.frames := by
  obtain ⟨hordered, hgiven⟩ := ordered_run? hl h
  refine ⟨hgiven, hordered.tallied.logs, pairwise_destutter_ne hordered.sorted, ?_,
    hordered.settled, ?_, fun m hm m' hm' => hordered.frames_eq hm hm'⟩
  · intro n hn
    obtain ⟨m, hm, rfl⟩ := hordered.acknowledged n hn
    exact mem_destutter_ne (List.mem_map_of_mem hm)
  · intro m hm
    obtain ⟨o, ho, rfl⟩ := hordered.messages m hm
    obtain ⟨b, nonce, hb, hempty, hprepared⟩ := hordered.offers o ho
    exact ⟨b, nonce, hb, hempty, by rw [hprepared]⟩

/-! ### A run with a lost reply -/

def lineBatch (n : Nat) : Batch := ⟨n, [.read 0 "log" (.ofNat (5 * n)) (.ofNat n) "line"]⟩

/-- The courier takes a batch and prepares it. -/
def takeBatch (b : Batch) : List Errand :=
  [.queue (.took (.item b)), .queue (.nonce (List.replicate nonceSize 0))]

/-- An empty batch comes first.  The reply to the next does not come in time, and the batch is sent
again on another socket; one more batch is sent before all is called off. -/
def lostReply : List Errand :=
  [.queue (.took (.item ⟨0, []⟩)), .queue (.probed true)] ++ takeBatch (lineBatch 1) ++
    openSocket ++ callFor (.done []) ++ callFor (.done []) ++ callFor (.done []) ++ callFor .expired ++
    [.link .closed] ++
    openSocket ++ callFor (.done []) ++ callFor (.done []) ++ callFor (.done []) ++ callFor (.done [6]) ++
    [.queue (.probed true)] ++ takeBatch (lineBatch 2) ++ callFor (.done []) ++ callFor (.done []) ++
    [.callOff]

theorem sent_in_order_resent :
    ∃ d, Link.ofSettings soleCollector = .ok soleLink ∧
      (start ⟨.zero, .zero⟩ soleLink).run? (.run :: lostReply) = some d ∧
      d.given = [⟨0, []⟩, lineBatch 1, lineBatch 2] ∧ d.wire.sent.map Message.place = [1, 1, 2] ∧
      d.wire.acknowledged = [1] ∧
      ((d.wire.sent.map Message.place).destutter (· ≠ ·)).Pairwise (· < ·) ∧
      (∀ n ∈ d.wire.acknowledged, n ∈ (d.wire.sent.map Message.place).destutter (· ≠ ·)) ∧
      ∀ m ∈ d.wire.sent, ∀ m' ∈ d.wire.sent, m.place = m'.place → m.frames = m'.frames := by
  obtain ⟨d, hd⟩ : ∃ d, (start ⟨.zero, .zero⟩ soleLink).run? (.run :: lostReply) = some d :=
    Option.isSome_iff_exists.1 rfl
  have hplaces : ((start ⟨.zero, .zero⟩ soleLink).run? (.run :: lostReply)).map
      (fun d => d.wire.sent.map Message.place) = some [1, 1, 2] := rfl
  have hreplies : ((start ⟨.zero, .zero⟩ soleLink).run? (.run :: lostReply)).map
      (fun d => d.wire.acknowledged) = some [1] := rfl
  rw [hd] at hplaces hreplies
  have hmade : Link.ofSettings soleCollector = .ok soleLink := rfl
  obtain ⟨hgiven, -, horder, hmembers, -, -, hcopies⟩ := sent_in_order hmade hd
  exact ⟨d, hmade, hd, hgiven, Option.some.inj hplaces, Option.some.inj hreplies, horder, hmembers,
    hcopies⟩

end Desk

end LogRelay
