import LogRelay.Proofs.Runs
import LogRelay.Proofs.Wire.Basic

/-!
# Steps at the sockets of a link

Whoever has something under way on a link waits for its sockets, and may at any moment be told that all
is called off.

* `Wire.Step`, `Wire.step?`: what can happen at the sockets;
* `Wire.ofLink`: the sockets of a link on which nothing is under way;
* `Wire.Awaits`, `awaits_step?`: a call is under way only as long as it is wanted;
* `sockets_of_outcome`, `sockets_note_closed`: what an outcome and a closing add to the latest socket;
* `mem_note`: whence an entry comes.
-/

namespace LogRelay

/-- What happens while something is under way on a link. -/
inductive Wire.Step where
  | callOff
  /-- The call that is wanted begins. -/
  | call
  | link (a : LinkAnswer)

namespace Wire

/-- What a step does to the sockets of somebody who wants something of them.  There is only one batch, if
any. -/
def step? (w : Wire) (want : LinkWant) : Step → Option Wire
  | .callOff => some w.callOff
  | .call => w.begin? want
  | .link a => if w.possible want a then some (w.note 0 a) else none

/-- The sockets of a link on which nothing is under way.  Nothing is known of what was asked of the socket
of its session. -/
def ofLink (l : Link) : Wire := { sockets := if l.isConnected then [[]] else [] }

/-- The call that is under way is the one that is wanted. -/
def Awaits (w : Wire) (want : LinkWant) : Prop := ∀ c, w.under = some c → ∃ limit, want = .call c limit

variable {w w' : Wire} {want : LinkWant} {a : LinkAnswer} {c : Call} {limit : Duration} {o : Outcome}
  {log : List Entry} {earlier : List (List Entry)} {place : Nat}

theorem awaits_ofLink (l : Link) : (ofLink l).Awaits want := fun _ hc => absurd hc (by simp [ofLink])

theorem Awaits.under_eq (h : w.Awaits (.call c limit)) {c' : Call} (hu : w.under = some c') : c' = c := by
  obtain ⟨limit', hwant⟩ := h c' hu
  exact (LinkWant.call.inj hwant).1.symm

theorem awaits_callOff (h : w.Awaits want) (hw : w.step? want .callOff = some w') : w'.Awaits want := by
  obtain rfl := Option.some.inj hw
  exact h

theorem awaits_call (hw : w.step? want .call = some w') : w'.Awaits want := by
  obtain ⟨c, limit, rfl, -, rfl⟩ := of_begin? hw
  intro c' hc
  obtain rfl := Option.some.inj hc
  exact ⟨limit, rfl⟩

/-- The sockets change only when something is answered. -/
theorem sockets_step? {m : Step} (hw : w.step? want m = some w') (hm : ∀ a, m ≠ .link a) :
    w'.sockets = w.sockets ∧ (w.called = true → w'.called = true) := by
  cases m with
  | callOff =>
    obtain rfl := Option.some.inj hw
    exact ⟨rfl, fun _ => rfl⟩
  | call =>
    obtain ⟨c, limit, -, -, rfl⟩ := of_begin? hw
    exact ⟨rfl, id⟩
  | link a => exact absurd rfl (hm a)

theorem of_link_step? (hw : w.step? want (.link a) = some w') :
    w.possible want a = true ∧ w' = w.note 0 a := by
  simp only [step?, Option.ite_none_right_eq_some, Option.some.injEq] at hw
  exact ⟨hw.1, hw.2.symm⟩

/-- After an answer no call is under way. -/
theorem awaits_link (want' : LinkWant) (h : w.Awaits want) (hw : w.step? want (.link a) = some w') :
    w'.Awaits want' := by
  obtain ⟨hp, rfl⟩ := of_link_step? hw
  intro c hc
  exact absurd hc (by simp [under_note hp h])

theorem sockets_note_outcome (hu : w.under = some c) (hs : w.sockets = log :: earlier) :
    (w.note place (.outcome o)).sockets = (log ++ [.call c (some o)]) :: earlier := by
  simp only [note, hu, record, (sockets_tally w place c o).1, hs]

theorem sockets_note_closed (place : Nat) (hs : w.sockets = log :: earlier) :
    (w.note place .closed).sockets = (log ++ [.close]) :: earlier := by
  simp only [note, record, hs]

/-- An outcome is entered for the latest socket, unless all was called off before the call began. -/
theorem sockets_of_outcome (place : Nat) (h : w.Awaits want) (hwant : want = .call c limit)
    (hp : w.possible want (.outcome o) = true) (ho : o ≠ .withheld) (hs : w.sockets = log :: earlier) :
    (w.note place (.outcome o)).sockets = (log ++ [.call c (some o)]) :: earlier := by
  subst hwant
  rcases of_possible_outcome hp with ⟨-, -, c', hu⟩ | ⟨-, rfl, -⟩ | ⟨-, -, c', hu⟩
  · exact h.under_eq hu ▸ sockets_note_outcome hu hs
  · exact absurd rfl ho
  · exact h.under_eq hu ▸ sockets_note_outcome hu hs

theorem sockets_of_withheld (hp : w.possible want (.outcome .withheld) = true) :
    (w.note place (.outcome .withheld)).sockets = w.sockets := by
  rcases of_possible_outcome hp with ⟨-, hno, -⟩ | ⟨-, -, hu⟩ | ⟨-, hno, -⟩
  · exact absurd hno (by simp [Outcome.isCallOff])
  · rw [note_outcome_of_none hu]
  · exact absurd hno (by simp)

theorem mem_record {e new : Entry} (hlog : log ∈ (w.record new).sockets) (he : e ∈ log) :
    (∃ log' ∈ w.sockets, e ∈ log') ∨ e = new := by
  rw [record] at hlog
  cases hw : w.sockets with
  | nil => exact absurd hlog (by simp [hw])
  | cons latest rest =>
    simp only [hw, List.mem_cons] at hlog
    rcases hlog with rfl | hlog
    · rcases List.mem_append.1 he with he | he
      · exact .inl ⟨latest, List.mem_cons_self, he⟩
      · exact .inr (List.mem_singleton.1 he)
    · exact .inl ⟨log, List.mem_cons_of_mem _ hlog, he⟩

/-- An answer adds at most one entry: a closing, or the outcome of the call that was under way. -/
theorem mem_note {e : Entry} (hlog : log ∈ (w.note place a).sockets) (he : e ∈ log) :
    (∃ log' ∈ w.sockets, e ∈ log') ∨ e = .close ∨
      ∃ c o, a = .outcome o ∧ w.under = some c ∧ e = .call c (some o) := by
  cases a with
  | picked | rested => exact .inl ⟨log, hlog, he⟩
  | socket r =>
    cases r with
    | error cause => exact .inl ⟨log, hlog, he⟩
    | ok u =>
      rcases List.mem_cons.1 hlog with rfl | hlog
      · exact absurd he List.not_mem_nil
      · exact .inl ⟨log, hlog, he⟩
  | closed => exact (mem_record hlog he).imp_right .inl
  | outcome o =>
    cases hu : w.under with
    | none =>
      rw [note_outcome_of_none hu] at hlog
      exact .inl ⟨log, hlog, he⟩
    | some c =>
      obtain ⟨htally, -⟩ := sockets_tally w place c o
      simp only [note, hu] at hlog
      rcases mem_record hlog he with hold | hnew
      · exact .inl (by rwa [htally] at hold)
      · exact .inr (.inr ⟨c, o, rfl, rfl, hnew⟩)

end Wire

end LogRelay
