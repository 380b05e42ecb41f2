import LogRelay.Text.Blank
import LogRelay.Text.Decimal
import LogRelay.Text.Split
import Mathlib.Data.List.TakeWhile

/-!
# The parts of a text

What trimming, cutting and reading a numeral make of a text, said without going through it.

* `Trims`, `trims_iff`: what is left of a text without the blank characters at its ends;
* `Framed`, `trimChars_of_framed`: texts that differ in blank characters at their ends are trimmed alike;
* `splitLast_eq_some_iff`, `splitLast_eq_none_iff`: a text is cut at the last occurrence of a character;
* `Pieces`, `pieces_iff`: a text is cut at all occurrences of a character;
* `IsNumeral`, `parseDecimal_eq_ok_iff`: **a numeral is a row of digits, maybe with a plus sign before it**.
-/

namespace LogRelay.Text

/-! ### Trimming -/

/-- `core` is `cs` without the blank characters at either end. -/
structure Trims (core cs : List Char) : Prop where
  framed : ∃ left right, cs = left ++ core ++ right ∧
    (∀ c ∈ left, isBlank c = true) ∧ ∀ c ∈ right, isBlank c = true
  head : ∀ c ∈ core.head?, isBlank c = false
  last : ∀ c ∈ core.getLast?, isBlank c = false

theorem head_dropWhile {p : Char → Bool} {cs : List Char} {c : Char} (h : c ∈ (cs.dropWhile p).head?) :
    p c = false := by
  have hnot := List.head?_dropWhile_not p cs
  rw [Option.mem_def.1 h] at hnot
  exact hnot

theorem trims_trimChars (cs : List Char) : Trims (trimChars cs) cs := by
  have hcs := List.takeWhile_append_dropWhile (p := isBlank) (l := cs)
  have hrest := List.takeWhile_append_dropWhile (p := isBlank) (l := (cs.dropWhile isBlank).reverse)
  have hback : trimChars cs ++ ((cs.dropWhile isBlank).reverse.takeWhile isBlank).reverse
      = cs.dropWhile isBlank := by
    rw [trimChars, ← List.reverse_append, hrest, List.reverse_reverse]
  refine ⟨⟨cs.takeWhile isBlank, ((cs.dropWhile isBlank).reverse.takeWhile isBlank).reverse, ?_, ?_, ?_⟩,
    ?_, ?_⟩
  · rw [List.append_assoc, hback, hcs]
  · exact fun c hc => List.mem_takeWhile_imp hc
  · exact fun c hc => List.mem_takeWhile_imp (List.mem_reverse.1 hc)
  · intro c hc
    -- the first character is the first one after the blanks on the left
    have hhead : c ∈ (cs.dropWhile isBlank).head? := by
      rw [← hback, List.head?_append, Option.mem_def.1 hc]
      rfl
    exact head_dropWhile hhead
  · intro c hc
    rw [trimChars, List.getLast?_reverse] at hc
    exact head_dropWhile hc

theorem dropWhile_framed {p : Char → Bool} {left cs : List Char} (hleft : ∀ c ∈ left, p c = true)
    (hhead : ∀ c ∈ cs.head?, p c = false) : (left ++ cs).dropWhile p = cs := by
  rw [List.dropWhile_append_of_pos hleft]
  cases cs with
  | nil => rfl
  | cons c cs => exact List.dropWhile_cons_of_neg (by simp [hhead c rfl])

theorem Trims.eq_trimChars {core cs : List Char} (h : Trims core cs) : core = trimChars cs := by
  obtain ⟨⟨left, right, rfl, hleft, hright⟩, hhead, hlast⟩ := h
  cases core with
  | nil =>
    have hblank : ∀ c ∈ left ++ right, isBlank c = true := fun c hc =>
      (List.mem_append.1 hc).elim (hleft c) (hright c)
    rw [trimChars, List.append_nil, List.dropWhile_eq_nil_iff.2 hblank]
    rfl
  | cons c core =>
    have hfront : (left ++ (c :: core ++ right)).dropWhile isBlank = c :: core ++ right :=
      dropWhile_framed hleft hhead
    rw [trimChars, List.append_assoc, hfront, List.reverse_append,
      dropWhile_framed (fun d hd => hright d (List.mem_reverse.1 hd)) (by rwa [List.head?_reverse]),
      List.reverse_reverse]

/-- **Trimming leaves what stands between the blanks.** -/
theorem trims_iff {core cs : List Char} : Trims core cs ↔ core = trimChars cs :=
  ⟨Trims.eq_trimChars, fun h => h ▸ trims_trimChars cs⟩

/-- `cs` is `core` with blank characters at its ends, or without any. -/
def Framed (core cs : List Char) : Prop :=
  ∃ left right, cs = left ++ core ++ right ∧ (∀ c ∈ left, isBlank c = true) ∧ ∀ c ∈ right, isBlank c = true

theorem Framed.trans {cs ds es : List Char} (h : Framed cs ds) (h' : Framed ds es) : Framed cs es := by
  obtain ⟨left, right, rfl, hleft, hright⟩ := h
  obtain ⟨left', right', rfl, hleft', hright'⟩ := h'
  refine ⟨left' ++ left, right ++ right', by simp only [List.append_assoc], ?_, ?_⟩
  · exact fun c hc => (List.mem_append.1 hc).elim (hleft' c) (hleft c)
  · exact fun c hc => (List.mem_append.1 hc).elim (hright c) (hright' c)

/-- Blank characters at the ends make no difference to what trimming leaves. -/
theorem trimChars_of_framed {cs ds : List Char} (h : Framed cs ds) : trimChars ds = trimChars cs := by
  have htrims := trims_trimChars cs
  have hframed : Framed (trimChars cs) cs := htrims.framed
  exact (Trims.eq_trimChars ⟨hframed.trans h, htrims.head, htrims.last⟩).symm

theorem mem_of_mem_trimChars {c : Char} {cs : List Char} (h : c ∈ trimChars cs) : c ∈ cs := by
  obtain ⟨left, right, hcs, -⟩ := (trims_trimChars cs).framed
  rw [hcs, List.mem_append, List.mem_append]
  exact .inl (.inr h)

/-- A text without blank characters is left as it is. -/
theorem trimChars_of_sound {cs : List Char} (h : ∀ c ∈ cs, isBlank c = false) : trimChars cs = cs := by
  refine (Trims.eq_trimChars ⟨⟨[], [], by simp, by simp, by simp⟩, ?_, ?_⟩).symm
  · exact fun c hc => h c (List.mem_of_mem_head? hc)
  · exact fun c hc => h c (List.mem_of_mem_getLast? hc)

theorem trimChars_eq_nil_iff {cs : List Char} : trimChars cs = [] ↔ ∀ c ∈ cs, isBlank c = true := by
  constructor
  · intro h
    obtain ⟨left, right, hcs, hleft, hright⟩ := (trims_trimChars cs).framed
    rw [h, List.append_nil] at hcs
    rw [hcs]
    exact fun c hc => (List.mem_append.1 hc).elim (hleft c) (hright c)
  · intro h
    exact (Trims.eq_trimChars ⟨⟨cs, [], by simp, h, by simp⟩, by simp, by simp⟩).symm

/-! ### Cutting at the last occurrence -/

theorem splitLast_eq_none_iff {c : Char} {cs : List Char} : splitLast c cs = none ↔ c ∉ cs := by
  induction cs with
  | nil => simp [splitLast]
  | cons x xs ih =>
    rw [splitLast]
    cases hs : splitLast c xs with
    | some p =>
      have hmem : c ∈ xs := by
        by_contra h
        exact absurd (ih.2 h) (by rw [hs]; simp)
      simp [hmem]
    | none => simp [ih.1 hs, eq_comm]

theorem splitLast_append {c : Char} {before after : List Char} (h : c ∉ after) :
    splitLast c (before ++ c :: after) = some (before, after) := by
  induction before with
  | nil => rw [List.nil_append, splitLast, splitLast_eq_none_iff.2 h]; simp
  | cons x before ih => rw [List.cons_append, splitLast, ih]

/-- **A text is cut at the last occurrence of a character.** -/
theorem splitLast_eq_some_iff {c : Char} {cs before after : List Char} :
    splitLast c cs = some (before, after) ↔ cs = before ++ c :: after ∧ c ∉ after := by
  constructor
  · intro h
    induction cs generalizing before with
    | nil => exact absurd h (by simp [splitLast])
    | cons x xs ih =>
      rw [splitLast] at h
      cases hs : splitLast c xs with
      | some p =>
        obtain ⟨p₁, p₂⟩ := p
        simp only [hs, Option.some.injEq, Prod.mk.injEq] at h
        obtain ⟨rfl, rfl⟩ := h
        obtain ⟨rfl, hnot⟩ := ih hs
        exact ⟨rfl, hnot⟩
      | none =>
        simp only [hs] at h
        split at h
        next hx =>
          obtain ⟨rfl, rfl⟩ := Prod.mk.inj (Option.some.inj h)
          exact ⟨by rw [hx, List.nil_append], splitLast_eq_none_iff.1 hs⟩
        next => exact absurd h (by simp)
  · rintro ⟨rfl, h⟩
    exact splitLast_append h

/-! ### Cutting at all occurrences -/

/-- The pieces of a text between the occurrences of `c`. -/
structure Pieces (c : Char) (ps : List (List Char)) (cs : List Char) : Prop where
  joined : [c].intercalate ps = cs
  apart : ∀ p ∈ ps, c ∉ p
  ne_nil : ps ≠ []

theorem splitAt_eq_splitOn (c : Char) (cs : List Char) : splitAt c cs = cs.splitOn c := by
  induction cs with
  | nil => rfl
  | cons x xs ih =>
    rw [splitAt, List.splitOn, List.splitOnP_cons_eq_if_modifyHead, ← List.splitOn, ← ih]
    by_cases hx : x = c
    · simp [hx]
    · cases hs : splitAt c xs with
      | nil => exact absurd hs (splitAt_ne_nil c xs)
      | cons piece pieces => simp [hx]

theorem notMem_of_mem_splitAt {c : Char} {cs p : List Char} (h : p ∈ splitAt c cs) : c ∉ p := by
  induction cs generalizing p with
  | nil =>
    obtain rfl := List.mem_singleton.1 h
    exact List.not_mem_nil
  | cons x xs ih =>
    rw [splitAt] at h
    split at h
    next hx =>
      rcases List.mem_cons.1 h with rfl | h
      · exact List.not_mem_nil
      · exact ih h
    next hx =>
      cases hs : splitAt c xs with
      | nil => exact absurd hs (splitAt_ne_nil c xs)
      | cons piece pieces =>
        simp only [hs, List.mem_cons] at h ih
        rcases h with rfl | h
        · exact fun hc => (List.mem_cons.1 hc).elim (fun he => hx he.symm) (ih (.inl rfl))
        · exact ih (.inr h)

/-- **A text is cut at all occurrences of a character.** -/
theorem pieces_iff {c : Char} {ps : List (List Char)} {cs : List Char} :
    Pieces c ps cs ↔ ps = splitAt c cs := by
  rw [splitAt_eq_splitOn]
  constructor
  · rintro ⟨rfl, hapart, hne⟩
    exact (List.splitOn_intercalate c hapart hne).symm
  · rintro rfl
    refine ⟨List.intercalate_splitOn c, fun p hp => ?_, ?_⟩
    · exact notMem_of_mem_splitAt (splitAt_eq_splitOn c cs ▸ hp)
    · exact splitAt_eq_splitOn c cs ▸ splitAt_ne_nil c cs

/-- A text in which the character does not occur is one piece. -/
theorem pieces_single {c : Char} {cs : List Char} (h : c ∉ cs) : Pieces c [cs] cs :=
  ⟨by simp, by simpa using h, by simp⟩

theorem Pieces.mem {c x : Char} {ps : List (List Char)} {cs p : List Char} (h : Pieces c ps cs)
    (hp : p ∈ ps) (hx : x ∈ p) : x ∈ cs := by
  obtain ⟨rfl, -, -⟩ := h
  induction ps with
  | nil => exact absurd hp List.not_mem_nil
  | cons q ps ih =>
    cases ps with
    | nil =>
      obtain rfl := List.mem_singleton.1 hp
      simpa using hx
    | cons q' ps =>
      rw [List.intercalate_cons_cons]
      rcases List.mem_cons.1 hp with rfl | hp
      · exact List.mem_append_left _ (List.mem_append_left _ hx)
      · exact List.mem_append_right _ (ih hp)

/-! ### Numerals -/

/-- A row of ASCII digits and its value; zeros may come first. -/
structure IsNumeral (digits : List Char) (n : Nat) : Prop where
  ne_nil : digits ≠ []
  isDigit : ∀ c ∈ digits, c.isDigit = true
  value : Nat.ofDigitChars 10 digits 0 = n

theorem digit?_eq (c : Char) : digit? c = if c.isDigit then some (c.toNat - '0'.toNat) else none := by
  have hrange : (('0' ≤ c && c ≤ '9') = true) ↔ c.isDigit = true := by
    rw [Char.isDigit_iff_toNat, Bool.and_eq_true, decide_eq_true_iff, decide_eq_true_iff]
    rfl
  simp only [digit?, hrange]

theorem le_ofDigitChars (cs : List Char) (acc : Nat) : acc ≤ Nat.ofDigitChars 10 cs acc := by
  induction cs generalizing acc with
  | nil => exact Nat.le_refl acc
  | cons c cs ih =>
    rw [Nat.ofDigitChars_cons]
    exact Nat.le_trans (by omega) (ih _)

theorem readDigits_eq_ok_iff {limit acc n : Nat} {cs : List Char} (hacc : acc ≤ limit) :
    readDigits limit acc cs = .ok n ↔
      (∀ c ∈ cs, c.isDigit = true) ∧ Nat.ofDigitChars 10 cs acc = n ∧ n ≤ limit := by
  induction cs generalizing acc with
  | nil =>
    rw [readDigits, Except.ok.injEq]
    constructor
    · rintro rfl
      exact ⟨by simp, rfl, hacc⟩
    · exact fun h => h.2.1
  | cons c cs ih =>
    rw [readDigits, digit?_eq, Nat.ofDigitChars_cons, Nat.mul_comm 10]
    by_cases hc : c.isDigit = true
    · rw [if_pos hc]
      by_cases hlarge : limit < acc * 10 + (c.toNat - '0'.toNat)
      · -- what is too large stays so
        have hgrows := le_ofDigitChars cs (acc * 10 + (c.toNat - '0'.toNat))
        simp only [if_pos hlarge, reduceCtorEq, false_iff, not_and]
        omega
      · simp only [if_neg hlarge]
        rw [ih (by omega)]
        simp [hc]
    · simp [hc]

/-- **A numeral is a row of digits, maybe with a plus sign before it.** -/
theorem parseDecimal_eq_ok_iff {limit n : Nat} {cs : List Char} :
    parseDecimal limit cs = .ok n ↔
      ∃ digits, (cs = digits ∨ cs = '+' :: digits) ∧ IsNumeral digits n ∧ n ≤ limit := by
  have reads (ds : List Char) (hne : ds ≠ []) :
      readDigits limit 0 ds = .ok n ↔ IsNumeral ds n ∧ n ≤ limit := by
    rw [readDigits_eq_ok_iff (Nat.zero_le limit)]
    exact ⟨fun ⟨hd, hv, hn⟩ => ⟨⟨hne, hd, hv⟩, hn⟩, fun ⟨h, hn⟩ => ⟨h.isDigit, h.value, hn⟩⟩
  have unsigned (ds : List Char) : ¬ IsNumeral ('+' :: ds) n := fun h =>
    absurd (h.isDigit '+' List.mem_cons_self) (by decide)
  unfold parseDecimal
  split
  · simp only [reduceCtorEq, false_iff]
    rintro ⟨digits, rfl | h, hd, -⟩
    · exact hd.ne_nil rfl
    · exact absurd h (by simp)
  · simp only [reduceCtorEq, false_iff]
    rintro ⟨digits, rfl | h, hd, -⟩
    · exact unsigned _ hd
    · exact hd.ne_nil (List.cons.inj h).2.symm
  next ds hne =>
    rw [reads ds fun h => hne (by rw [h])]
    constructor
    · exact fun h => ⟨ds, .inr rfl, h⟩
    · rintro ⟨digits, rfl | h, hd, hn⟩
      · exact absurd hd (unsigned ds)
      · rw [(List.cons.inj h).2]
        exact ⟨hd, hn⟩
  next hne _ hplus =>
    rw [reads cs hne]
    constructor
    · exact fun h => ⟨cs, .inl rfl, h⟩
    · rintro ⟨digits, rfl | h, hd, hn⟩
      · exact ⟨hd, hn⟩
      · exact absurd h (hplus digits)

end LogRelay.Text
