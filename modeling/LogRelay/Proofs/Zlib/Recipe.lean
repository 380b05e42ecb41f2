import LogRelay.Zlib.Recipe

/-!
# Recipes make what they were found for

A copy is used only as far as the octets at its place agree with those it copies, so a recipe makes its
data whatever is proposed for the places.  Along the way every copy keeps the bounds that a stream can
write down.

* `Step.Admissible`: the bounds;
* `copyFrom_extract`: a copy of octets that agree goes on with the data;
* `expand_recipe`: **a recipe makes its data**;
* `admissible_of_mem_recipe`: and keeps the bounds.
-/

namespace LogRelay.Zlib

/-- A copy whose length and distance are within the bounds of a stream. -/
def Step.Admissible : Step → Prop
  | .literal _ => True
  | .copy length distance =>
    minLength ≤ length ∧ length ≤ maxLength ∧ 0 < distance ∧ distance ≤ maxDistance

/-! ### Agreement -/

theorem agreement_le (data : Array UInt8) (limit i j : Nat) : agreement data limit i j ≤ limit := by
  fun_induction agreement data limit i j <;> omega

theorem getElem?_of_lt_agreement {data : Array UInt8} {limit i j k : Nat}
    (h : k < agreement data limit i j) : i + k < data.size ∧ j + k < data.size ∧
      data[i + k]? = data[j + k]? := by
  fun_induction agreement data limit i j generalizing k with
  | case1 => omega
  | case2 limit i j hi hj he ih =>
    cases k with
    | zero => exact ⟨hi, hj, by simp [hi, hj, he]⟩
    | succ k =>
      obtain ⟨hi, hj, hk⟩ := ih (k := k) (by omega)
      have ei : i + (k + 1) = i + 1 + k := by omega
      have ej : j + (k + 1) = j + 1 + k := by omega
      rw [ei, ej]
      exact ⟨hi, hj, hk⟩
  | case3 | case4 | case5 => omega

/-! ### Copies -/

/-- One octet further. -/
theorem push_before {data : Array UInt8} {i distance : Nat} (hd : 0 < distance) (hdi : distance ≤ i)
    (hi : i < data.size) (he : data[i - distance]? = data[i]?) :
    (data.extract 0 i).push (before (data.extract 0 i) distance) = data.extract 0 (i + 1) := by
  have hb : before (data.extract 0 i) distance = data[i] := by
    have hs : (data.extract 0 i).size = i := by simp; omega
    have hx : (data.extract 0 i)[i - distance]? = some data[i] := by
      rw [Array.getElem?_extract, Nat.zero_add, he, Array.getElem?_eq_getElem hi, if_pos (by omega)]
    rw [before, hs, if_pos hdi, Array.getD_eq_getD_getElem?, hx, Option.getD_some]
  rw [hb, Array.push_extract_getElem]
  simp

/-- A copy of octets that agree with those that come goes on with the data. -/
theorem copyFrom_extract {data : Array UInt8} {distance : Nat} (hd : 0 < distance) :
    ∀ {length i : Nat}, distance ≤ i →
      (∀ k < length, i + k < data.size ∧ data[i + k - distance]? = data[i + k]?) →
      copyFrom distance length (data.extract 0 i) = data.extract 0 (i + length) := by
  intro length
  induction length with
  | zero => intro i _ _; rfl
  | succ length ih =>
    intro i hdi h
    obtain ⟨hi, he⟩ := h 0 (by omega)
    rw [copyFrom, push_before hd hdi hi he, ih (by omega)]
    · congr 1
      omega
    · intro k hk
      have := h (k + 1) (by omega)
      rwa [show i + (k + 1) = i + 1 + k by omega] at this

/-! ### Recipes -/

theorem copyAt?_bounds {data : Array UInt8} {proposed : Option Nat} {i length distance : Nat}
    (h : copyAt? data proposed i = some (length, distance)) :
    (Step.copy length distance).Admissible ∧ distance ≤ i ∧
      length = agreement data maxLength (i - distance) i := by
  unfold copyAt? at h
  split at h
  · cases h
  next j =>
    simp only at h
    split at h
    next hc =>
      obtain ⟨hl, hj, hm⟩ := hc
      cases h
      refine ⟨⟨hl, agreement_le _ _ _ _, by omega, hm⟩, by omega, ?_⟩
      rw [show i - (i - j) = j by omega]
    next => cases h

theorem copyFrom_of_copyAt? {data : Array UInt8} {proposed : Option Nat} {i length distance : Nat}
    (h : copyAt? data proposed i = some (length, distance)) :
    copyFrom distance length (data.extract 0 i) = data.extract 0 (i + length) := by
  obtain ⟨⟨-, -, hd, -⟩, hi, hl⟩ := copyAt?_bounds h
  refine copyFrom_extract hd hi fun k hk => ?_
  rw [hl] at hk
  obtain ⟨-, hs, he⟩ := getElem?_of_lt_agreement hk
  refine ⟨hs, ?_⟩
  rw [← he]
  congr 1
  omega

/-- The steps from `i` on make the data from `i` on. -/
theorem foldl_recipeFrom (data : Array UInt8) (proposed : Array (Option Nat)) (i : Nat) :
    (recipeFrom data proposed i).foldl Step.apply (data.extract 0 i) = data := by
  fun_induction recipeFrom data proposed i with
  | case1 i hi length distance hc ih =>
    rw [List.foldl_cons, Step.apply, copyFrom_of_copyAt? hc]
    exact ih
  | case2 i hi hc ih =>
    rw [List.foldl_cons, Step.apply, Array.push_extract_getElem]
    simpa using ih
  | case3 i hi =>
    rw [List.foldl_nil, Array.extract_eq_self_of_le (by omega)]

theorem admissible_of_mem_recipeFrom {data : Array UInt8} {proposed : Array (Option Nat)} {i : Nat}
    {step : Step} (h : step ∈ recipeFrom data proposed i) : step.Admissible := by
  fun_induction recipeFrom data proposed i with
  | case1 i hi length distance hc ih =>
    rcases List.mem_cons.1 h with rfl | h
    · exact (copyAt?_bounds hc).1
    · exact ih h
  | case2 i hi hc ih =>
    rcases List.mem_cons.1 h with rfl | h
    · trivial
    · exact ih h
  | case3 => cases h

/-- **A recipe makes its data.** -/
theorem expand_recipe (data : Bytes) : expand (recipe data) = data := by
  have h := foldl_recipeFrom data.toArray (proposals data.toArray) 0
  rw [Array.extract_zero] at h
  rw [expand, recipe, h]

theorem admissible_of_mem_recipe {data : Bytes} {step : Step} (h : step ∈ recipe data) :
    step.Admissible :=
  admissible_of_mem_recipeFrom h

end LogRelay.Zlib
