import Mathlib.Data.List.Forall2

/-!
# Attempts

What can fail gives a value or a fault.  When one attempt follows another, all of them have to succeed, and
otherwise the first fault is what comes of it all.

* `bind_eq_ok_iff`, `bind_eq_error_iff`: one attempt after another;
* `mapM_eq_ok_iff`, `mapM_eq_error_iff`: an attempt for each entry of a list, from the left;
* `Agree`, `agree_mapM`: attempts that come to the same value, or to faults that are alike.
-/

namespace LogRelay

variable {ε α β : Type} {f : α → Except ε β} {l : List α} {bs : List β} {e : ε}

theorem bind_eq_ok_iff {x : Except ε α} {b : β} : x >>= f = .ok b ↔ ∃ a, x = .ok a ∧ f a = .ok b := by
  cases x <;> simp [bind, Except.bind]

theorem bind_eq_error_iff {x : Except ε α} :
    x >>= f = .error e ↔ x = .error e ∨ ∃ a, x = .ok a ∧ f a = .error e := by
  cases x <;> simp [bind, Except.bind]

/-- All attempts succeed, each with the value at its place. -/
theorem mapM_eq_ok_iff : l.mapM f = .ok bs ↔ List.Forall₂ (fun a b => f a = .ok b) l bs := by
  induction l generalizing bs with
  | nil => cases bs <;> simp [pure, Except.pure]
  | cons a l ih =>
    rw [List.mapM_cons, bind_eq_ok_iff]
    simp only [bind_eq_ok_iff, pure, Except.pure, Except.ok.injEq, ih]
    constructor
    · rintro ⟨b, hb, bs, hbs, rfl⟩
      exact .cons hb hbs
    · rintro (- | ⟨hb, hbs⟩)
      exact ⟨_, hb, _, hbs, rfl⟩

theorem exists_of_mapM_eq_ok {a : α} (h : l.mapM f = .ok bs) (ha : a ∈ l) : ∃ b, f a = .ok b := by
  rw [mapM_eq_ok_iff] at h
  induction h with
  | nil => exact absurd ha List.not_mem_nil
  | cons hb _ ih =>
    rcases List.mem_cons.1 ha with rfl | ha
    · exact ⟨_, hb⟩
    · exact ih ha

/-- One attempt fails, and all before it succeed. -/
theorem mapM_eq_error_iff : l.mapM f = .error e ↔
    ∃ before a after, l = before ++ a :: after ∧ (∀ x ∈ before, ∃ b, f x = .ok b) ∧ f a = .error e := by
  induction l with
  | nil => simp [pure, Except.pure]
  | cons a l ih =>
    rw [List.mapM_cons, bind_eq_error_iff]
    simp only [bind_eq_error_iff, pure, Except.pure, reduceCtorEq, and_false, exists_false, or_false, ih]
    constructor
    · rintro (ha | ⟨b, hb, before, a', after, rfl, hbefore, ha'⟩)
      · exact ⟨[], a, l, rfl, by simp, ha⟩
      · exact ⟨a :: before, a', after, rfl, List.forall_mem_cons.2 ⟨⟨b, hb⟩, hbefore⟩, ha'⟩
    · rintro ⟨before, a', after, hl, hbefore, ha'⟩
      cases before with
      | nil =>
        obtain ⟨rfl, -⟩ := List.cons.inj hl
        exact .inl ha'
      | cons x before =>
        obtain ⟨rfl, rfl⟩ := List.cons.inj hl
        obtain ⟨⟨b, hb⟩, hbefore⟩ := List.forall_mem_cons.1 hbefore
        exact .inr ⟨b, hb, before, a', after, rfl, hbefore, ha'⟩

/-! ### Attempts that come to the same -/

/-- Two attempts that come to the same value, or to faults that are alike. -/
inductive Agree (alike : ε → ε → Prop) : Except ε α → Except ε α → Prop where
  | ok (a : α) : Agree alike (.ok a) (.ok a)
  | error {e e' : ε} (h : alike e e') : Agree alike (.error e) (.error e')

variable {alike : ε → ε → Prop}

theorem Agree.bind {x y : Except ε α} {f g : α → Except ε β} (h : Agree alike x y)
    (hnext : ∀ a, Agree alike (f a) (g a)) : Agree alike (x >>= f) (y >>= g) := by
  cases h with
  | ok a => exact hnext a
  | error h => exact .error h

/-- Attempts that agree at every place agree as a whole. -/
theorem agree_mapM {l l' : List α} (h : List.Forall₂ (fun a b => Agree alike (f a) (f b)) l l') :
    Agree alike (l.mapM f) (l'.mapM f) := by
  induction h with
  | nil => exact .ok []
  | cons hab _ ih =>
    simp only [List.mapM_cons]
    exact hab.bind fun b => ih.bind fun bs => .ok (b :: bs)

theorem Agree.eq_ok {x : Except ε α} {a : α} (h : Agree alike (.ok a) x) : x = .ok a := by
  cases h
  rfl

end LogRelay
