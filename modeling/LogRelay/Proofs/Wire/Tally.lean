import LogRelay.Proofs.Wire.Basic

/-!
# Messages and replies

What is counted of messages and replies is what the sockets have taken and given.

* `Wire.Tallied`, `Wire.tallied_note`: the messages that are counted are those that all sockets
  together have taken, one socket after the other;
* `Wire.HasTaken`: a message is the last thing that the latest socket has taken;
* `Wire.Noted`, `Wire.noted`: what an answer adds to the count.
-/

namespace LogRelay

/-- Only a last frame makes a message. -/
theorem Assembled.messages_add {a : Assembled} {e : Entry}
    (h : ∀ frame x, e ≠ .call (.send frame false) (some (.done x))) :
    (a.add e).messages = a.messages := by
  by_cases hmore : ∃ frame x, e = .call (.send frame true) (some (.done x))
  · obtain ⟨frame, x, rfl⟩ := hmore
    rfl
  · rw [Assembled.add_of_ne]
    intro frame more x he
    cases more with
    | true => exact hmore ⟨frame, x, he⟩
    | false => exact h frame x he

namespace Wire

variable {w : Wire} {place : Nat} {c : Call} {o : Outcome} {e : Entry} {a : LinkAnswer}

/-- The messages that are counted are those that the sockets have taken, the first socket first. -/
def Tallied (w : Wire) : Prop :=
  w.sent.map Message.frames = w.sockets.reverse.flatMap fun log => (assembled log).messages

/-- The last thing that was asked of the latest socket was to take a last frame, and it did. -/
def HasTaken (w : Wire) : Prop :=
  ∃ frame x, w.latest.getLast? = some (.call (.send frame false) (some (.done x)))

/-- A call that is under way is no message yet. -/
theorem Tallied.logs (h : w.Tallied) :
    w.sent.map Message.frames = w.logs.reverse.flatMap fun log => (assembled log).messages := by
  rw [h]
  unfold Wire.logs
  split
  next c log rest hu hs =>
    rw [hs, List.reverse_cons, List.reverse_cons, List.flatMap_append, List.flatMap_append]
    congr 1
    show (assembled log).messages ++ [] = (assembled (log ++ [.call c none])).messages ++ []
    rw [assembled_concat, Assembled.add_of_ne (by simp)]
  next => rfl

@[simp] theorem sent_record (w : Wire) (e : Entry) :
    (w.record e).sent = w.sent ∧ (w.record e).acknowledged = w.acknowledged := by
  rw [record]
  split <;> exact ⟨rfl, rfl⟩

/-- An entry that is no last frame leaves the count as it is. -/
theorem Tallied.record (h : w.Tallied) (he : ∀ frame x, e ≠ .call (.send frame false) (some (.done x))) :
    (w.record e).Tallied := by
  rw [Tallied] at h ⊢
  rw [(sent_record w e).1, h, Wire.record]
  cases hs : w.sockets with
  | nil => rw [hs]
  | cons log rest =>
    show (log :: rest).reverse.flatMap _ = ((log ++ [e]) :: rest).reverse.flatMap _
    rw [List.reverse_cons, List.reverse_cons, List.flatMap_append, List.flatMap_append]
    congr 1
    show (assembled log).messages ++ [] = (assembled (log ++ [e])).messages ++ []
    rw [assembled_concat, Assembled.messages_add he]

theorem hasTaken_record (h : (w.record e).HasTaken) :
    ∃ frame x, e = .call (.send frame false) (some (.done x)) := by
  obtain ⟨frame, x, hlast⟩ := h
  rw [Wire.record] at hlast
  cases hs : w.sockets with
  | nil =>
    rw [hs] at hlast
    exact absurd hlast (by simp [latest, hs])
  | cons log rest =>
    rw [hs] at hlast
    have hlast : (log ++ [e]).getLast? = _ := hlast
    rw [List.getLast?_concat] at hlast
    exact ⟨frame, x, Option.some.inj hlast⟩

/-! ### What an answer adds -/

/-- What an answer adds to the count while the batch at `place` is delivered: a message, a reply, or
nothing. -/
inductive Noted (w : Wire) (place : Nat) (a : LinkAnswer) (w' : Wire) : Prop where
  | message (frame x : Bytes) (hu : w.under = some (.send frame false)) (ha : a = .outcome (.done x))
      (hs : w'.sent = w.sent ++ [⟨place, (assembled w.latest).held ++ [frame]⟩])
      (hk : w'.acknowledged = w.acknowledged)
  | reply (x : Bytes) (hu : w.under = some .receive) (ha : a = .outcome (.done x))
      (hs : w'.sent = w.sent)
      (hk : w'.acknowledged = w.acknowledged ++ [place])
  | nothing (hs : w'.sent = w.sent) (hk : w'.acknowledged = w.acknowledged)
      (ht : w'.HasTaken → w.HasTaken)

theorem noted (w : Wire) (place : Nat) (a : LinkAnswer) : w.Noted place a (w.note place a) := by
  cases a with
  | picked | rested => exact .nothing rfl rfl id
  | socket r =>
    cases r with
    | error cause => exact .nothing rfl rfl id
    | ok u =>
      refine .nothing rfl rfl ?_
      intro ht
      obtain ⟨frame, x, hlast⟩ := ht
      exact absurd hlast (by simp [note, latest])
  | closed =>
    obtain ⟨hs, hk⟩ := sent_record w .close
    refine .nothing hs hk ?_
    intro ht
    obtain ⟨frame, x, hno⟩ := hasTaken_record ht
    exact absurd hno (by simp)
  | outcome o =>
    cases hu : w.under with
    | none =>
      rw [note_outcome_of_none hu]
      exact .nothing rfl rfl id
    | some c =>
      -- the entry is recorded after the count
      have hrecord : (w.note place (.outcome o)).sent = (w.tally place c o).sent ∧
          (w.note place (.outcome o)).acknowledged = (w.tally place c o).acknowledged := by
        simp only [note, hu]
        exact sent_record _ _
      have hnothing (ht : w.tally place c o = w)
          (hne : ∀ frame x, c = .send frame false → o ≠ .done x) :
          w.Noted place (.outcome o) (w.note place (.outcome o)) := by
        rw [ht] at hrecord
        refine .nothing hrecord.1 hrecord.2 ?_
        intro htaken
        simp only [note, hu] at htaken
        obtain ⟨frame, x, he⟩ := hasTaken_record (w := w.tally place c o) htaken
        obtain ⟨hc, ho⟩ := Entry.call.inj he
        exact absurd (Option.some.inj ho) (hne frame x hc)
      cases c with
      | connect address => exact hnothing (by cases o <;> rfl) (by simp)
      | receive =>
        cases o with
        | done x => exact .reply x hu rfl hrecord.1 hrecord.2
        | failed | expired | withheld | abandoned => exact hnothing rfl (by simp)
      | send frame more =>
        cases more with
        | true => exact hnothing (by cases o <;> rfl) (by simp)
        | false =>
          cases o with
          | done x => exact .message frame x hu rfl hrecord.1 hrecord.2
          | failed | expired | withheld | abandoned => exact hnothing rfl (by simp)

theorem acknowledged_of_reply (hu : w.under = some .receive) (place : Nat) (x : Bytes) :
    (w.note place (.outcome (.done x))).acknowledged = w.acknowledged ++ [place] := by
  simp only [note, hu]
  exact (sent_record _ _).2

/-- **Every answer keeps the count right.** -/
theorem tallied_note (h : w.Tallied) (hsockets : w.sockets = [] → w.under = none) (place : Nat)
    (a : LinkAnswer) :
    (w.note place a).Tallied := by
  cases a with
  | picked | rested => exact h
  | socket r =>
    cases r with
    | error cause => exact h
    | ok u =>
      show w.sent.map Message.frames = ([] :: w.sockets).reverse.flatMap _
      rw [h, List.reverse_cons, List.flatMap_append]
      exact (List.append_nil _).symm
  | closed => exact h.record (by simp)
  | outcome o =>
    cases hu : w.under with
    | none =>
      rw [note_outcome_of_none hu]
      exact h
    | some c =>
      simp only [note, hu]
      have hs := (sockets_tally w place c o).1
      by_cases hlast : ∃ frame x, c = .send frame false ∧ o = .done x
      · obtain ⟨frame, x, rfl, rfl⟩ := hlast
        cases hw : w.sockets with
        | nil => exact absurd (hu.symm.trans (hsockets hw)) (by simp)
        | cons log rest =>
          rw [hw] at hs
          simp only [Tallied, Wire.record, hs]
          simp only [tally, latest, hw, List.headD_cons, List.map_append, List.reverse_cons,
            List.flatMap_append]
          rw [h, hw, List.reverse_cons, List.flatMap_append, List.append_assoc]
          congr 1
          show ((assembled log).messages ++ []) ++ [(assembled log).held ++ [frame]]
            = (assembled (log ++ _)).messages ++ []
          rw [assembled_concat, List.append_nil, List.append_nil]
          rfl
      · have htally : (w.tally place c o).Tallied := by
          rw [Tallied, hs, ← h]
          congr 1
          unfold tally
          split
          next frame x => exact absurd ⟨frame, x, rfl, rfl⟩ hlast
          next => rfl
          next => rfl
        exact htally.record fun frame x he =>
          hlast ⟨frame, x, (Entry.call.inj he).1, Option.some.inj (Entry.call.inj he).2⟩

end Wire

end LogRelay
