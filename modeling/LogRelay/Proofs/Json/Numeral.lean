import LogRelay.Event.Written
import LogRelay.Json.Token

/-!
# Reading what was written as a JSON numeral

A numeral may be written in many ways, and is scanned into its parts whichever it is.  A whole number is
written by its digits; as long as it fits a 64-bit word nothing of it is lost.

* `digits`: the digits of a number, the highest first;
* `Loose rest`: nothing in `rest` can go on with a numeral in front of it;
* `Lexeme.Form`, `Form.scan`: the ways to write a numeral, and that it is scanned;
* `absorb_digits`: the digits of a word make it up;
* `Lexeme.Form.lexNumber`: **a numeral is read as what it stands for**.
-/

namespace LogRelay.Json

/-! ### Digits -/

/-- The digits of a number, the highest first. -/
def digits (n : Nat) : List Nat := (Nat.toDigits 10 n).map fun c => c.toNat - 48

def digitOctet (d : Nat) : UInt8 := UInt8.ofNat (48 + d)

theorem digits_of_lt {n : Nat} (h : n < 10) : digits n = [n] := by
  rw [digits, Nat.toDigits_of_lt_base h, List.map_singleton, Nat.toNat_digitChar_of_lt_ten h,
    Nat.add_sub_cancel_left]

theorem digits_of_le {n : Nat} (h : 10 ≤ n) : digits n = digits (n / 10) ++ [n % 10] := by
  rw [digits, Nat.toDigits_of_base_le (by decide) h, List.map_append, List.map_singleton,
    Nat.toNat_digitChar_of_lt_ten (Nat.mod_lt n (by decide)), Nat.add_sub_cancel_left]
  rfl

theorem bounds_of_mem_toDigits {n : Nat} {c : Char} (h : c ∈ Nat.toDigits 10 n) :
    48 ≤ c.toNat ∧ c.toNat ≤ 57 := by
  have hd := Nat.isDigit_of_mem_toDigits (by decide) (by decide) h
  simp only [Char.isDigit, Bool.and_eq_true, decide_eq_true_eq] at hd
  exact hd

theorem lt_of_mem_digits {n d : Nat} (h : d ∈ digits n) : d < 10 := by
  obtain ⟨c, hc, rfl⟩ := List.mem_map.1 h
  have := bounds_of_mem_toDigits hc
  omega

theorem writeNatural_eq (n : Nat) : writeNatural n = (digits n).map digitOctet := by
  rw [writeNatural, digitOctets, digits, List.map_map]
  refine List.map_congr_left fun c hc => ?_
  obtain ⟨h, -⟩ := bounds_of_mem_toDigits hc
  rw [Function.comp_apply, digitOctet, Nat.add_sub_cancel' h]

theorem toNat_digitOctet {d : Nat} (h : d < 10) : (digitOctet d).toNat = 48 + d := by
  have hlt : 48 + d < 256 := by omega
  exact UInt8.toNat_ofNat_of_lt' hlt

theorem digit?_digitOctet {d : Nat} (h : d < 10) : digit? (digitOctet d) = some d := by
  rw [digit?, toNat_digitOctet h, if_pos (by omega), Nat.add_sub_cancel_left]

/-- The first digit is not zero, unless it is the only one. -/
theorem exists_digits (n : Nat) : ∃ d ds, digits n = d :: ds ∧ (d = 0 → n = 0 ∧ ds = []) := by
  induction n using Nat.strongRecOn with
  | ind n ih =>
    by_cases h : n < 10
    · exact ⟨n, [], digits_of_lt h, fun h0 => ⟨h0, rfl⟩⟩
    · obtain ⟨d, ds, he, hd⟩ := ih (n / 10) (by omega)
      refine ⟨d, ds ++ [n % 10], by rw [digits_of_le (by omega), he]; rfl, fun h0 => ?_⟩
      have := (hd h0).1
      omega

/-- The first octet of `rest` is no digit. -/
def Ended (rest : Bytes) : Prop := ∀ b ∈ rest.head?, digit? b = none

/-- Nothing in `rest` can go on with a numeral. -/
def Loose (rest : Bytes) : Prop :=
  ∀ b ∈ rest.head?, digit? b = none ∧ b ≠ 46 ∧ b ≠ 101 ∧ b ≠ 69

theorem Loose.ended {rest : Bytes} (h : Loose rest) : Ended rest := fun b hb => (h b hb).1

theorem takeDigits_ended {rest : Bytes} (h : Ended rest) : takeDigits rest = ([], rest) := by
  cases rest with
  | nil => rfl
  | cons b rest => rw [takeDigits, h b rfl]

theorem takeDigits_digitOctets {ds : List Nat} (hds : ∀ d ∈ ds, d < 10) {rest : Bytes}
    (h : Ended rest) : takeDigits (ds.map digitOctet ++ rest) = (ds, rest) := by
  induction ds with
  | nil => exact takeDigits_ended h
  | cons d ds ih =>
    have hd := hds d List.mem_cons_self
    rw [List.map_cons, List.cons_append, takeDigits, digit?_digitOctet hd,
      ih fun d' hd' => hds d' (List.mem_cons_of_mem _ hd')]

/-! ### Lexemes -/

namespace Lexeme

theorem absorb_snoc {limit n m d : Nat} {ds : List Nat} (h : absorb limit n ds = (m, []))
    (hm : m * 10 + d ≤ limit) : absorb limit n (ds ++ [d]) = (m * 10 + d, []) := by
  induction ds generalizing n with
  | nil =>
    obtain rfl : n = m := by simpa [absorb] using h
    rw [List.nil_append, absorb, if_neg (by omega), absorb]
  | cons d' ds ih =>
    rw [absorb] at h
    split at h
    · cases h
    next hlt =>
      rw [List.cons_append, absorb, if_neg hlt]
      exact ih h

/-- The digits of a number within the limit make it up. -/
theorem absorb_digits {limit n : Nat} (h : n ≤ limit) : absorb limit 0 (digits n) = (n, []) := by
  induction n using Nat.strongRecOn with
  | ind n ih =>
    by_cases hn : n < 10
    · rw [digits_of_lt hn, absorb, if_neg (by omega), absorb, Nat.zero_mul, Nat.zero_add]
    · have hd := absorb_snoc (d := n % 10) (ih (n / 10) (by omega) (by omega)) (by omega)
      rwa [← digits_of_le (by omega), show n / 10 * 10 + n % 10 = n by omega] at hd

/-! ### How a numeral may be written -/

/-- A row of digits, at least one. -/
def IsDigits (ds : List Nat) : Prop := ds ≠ [] ∧ ∀ d ∈ ds, d < 10

/-- The digits after the point, if there is one. -/
inductive FractionForm : List Nat → Bytes → Prop where
  | absent : FractionForm [] []
  | present {ds : List Nat} (h : IsDigits ds) : FractionForm ds (46 :: ds.map digitOctet)

/-- The sign of an exponent. -/
inductive SignForm : Bool → Bytes → Prop where
  | absent : SignForm false []
  | plus : SignForm false [43]
  | minus : SignForm true [45]

/-- The exponent, if there is one; its letter is in either case. -/
inductive ExponentForm : Option (Bool × List Nat) → Bytes → Prop where
  | absent : ExponentForm none []
  | present {e : UInt8} {down : Bool} {sign : Bytes} {ds : List Nat} (he : e = 101 ∨ e = 69)
      (hsign : SignForm down sign) (h : IsDigits ds) :
      ExponentForm (some (down, ds)) (e :: (sign ++ ds.map digitOctet))

/-- The ways to write a numeral: a minus sign or none, digits that do not begin with a zero unless it is the
only one, a fraction and an exponent. -/
inductive Form : Lexeme → Bytes → Prop where
  | mk {minus : Bool} {whole fraction : List Nat} {exponent : Option (Bool × List Nat)} {bs bs' : Bytes}
      (hwhole : IsDigits whole) (hzero : whole.head? = some 0 → whole = [0])
      (hfraction : FractionForm fraction bs) (hexponent : ExponentForm exponent bs') :
      Form ⟨minus, whole, fraction, exponent⟩
        ((if minus then [45] else []) ++ (whole.map digitOctet ++ (bs ++ bs')))

theorem IsDigits.exists_cons {ds : List Nat} (h : IsDigits ds) : ∃ d ds', ds = d :: ds' ∧ d < 10 := by
  obtain ⟨d, ds', rfl⟩ := List.exists_cons_of_ne_nil h.1
  exact ⟨d, ds', rfl, h.2 d List.mem_cons_self⟩

theorem IsDigits.takeDigits {ds : List Nat} {rest : Bytes} (h : IsDigits ds) (hrest : Ended rest) :
    takeDigits (ds.map digitOctet ++ rest) = (ds, rest) := takeDigits_digitOctets h.2 hrest

theorem digitOctet_ne {d : Nat} {b : UInt8} (hd : d < 10) (hb : digit? b = none) : digitOctet d ≠ b := by
  rintro rfl
  simp [digit?_digitOctet hd] at hb

theorem scanMinus_digits {ds : List Nat} (h : IsDigits ds) (minus : Bool) (rest : Bytes) :
    scanMinus ((if minus then [45] else []) ++ (ds.map digitOctet ++ rest))
      = (minus, ds.map digitOctet ++ rest) := by
  cases minus with
  | true => rfl
  | false =>
    obtain ⟨d, ds, rfl, hd⟩ := h.exists_cons
    show scanMinus (digitOctet d :: _) = _
    unfold scanMinus
    split
    next heq => exact absurd (List.cons.inj heq).1 (digitOctet_ne hd (by decide))
    next => rfl

theorem scanWhole_digits {ds : List Nat} {rest : Bytes} (h : IsDigits ds)
    (hzero : ds.head? = some 0 → ds = [0]) (hrest : Ended rest) :
    scanWhole (ds.map digitOctet ++ rest) = .ok (ds, rest) := by
  rw [scanWhole, h.takeDigits hrest]
  split
  next heq => exact absurd (Prod.mk.inj heq).1 h.1
  next heq =>
    obtain ⟨rfl, -⟩ := Prod.mk.inj heq
    exact absurd (hzero rfl) (by simp)
  next heq =>
    obtain ⟨rfl, rfl⟩ := Prod.mk.inj heq
    rfl

theorem scanFraction_form {ds : List Nat} {bs rest : Bytes} (h : FractionForm ds bs)
    (hrest : Ended rest) (hpoint : rest.head? ≠ some 46) :
    scanFraction (bs ++ rest) = .ok (ds, rest) := by
  cases h with
  | absent =>
    rw [List.nil_append]
    unfold scanFraction
    split
    next => exact absurd rfl hpoint
    next => rfl
  | present h =>
    show scanFraction (46 :: (ds.map digitOctet ++ rest)) = _
    rw [scanFraction, h.takeDigits hrest]
    obtain ⟨d, ds, rfl, -⟩ := h.exists_cons
    rfl

theorem scanSign_form {down : Bool} {sign rest : Bytes} {ds : List Nat} (h : SignForm down sign)
    (hds : IsDigits ds) :
    scanSign (sign ++ ds.map digitOctet ++ rest) = (down, ds.map digitOctet ++ rest) := by
  cases h with
  | plus | minus => rfl
  | absent =>
    obtain ⟨d, ds, rfl, hd⟩ := hds.exists_cons
    show scanSign (digitOctet d :: _) = _
    unfold scanSign
    split
    next heq => exact absurd (List.cons.inj heq).1 (digitOctet_ne hd (by decide))
    next heq => exact absurd (List.cons.inj heq).1 (digitOctet_ne hd (by decide))
    next => rfl

theorem scanExponent_form {e : Option (Bool × List Nat)} {bs rest : Bytes} (h : ExponentForm e bs)
    (hrest : Loose rest) : scanExponent (bs ++ rest) = .ok (e, rest) := by
  cases h with
  | absent =>
    rw [List.nil_append]
    unfold scanExponent
    split
    next => exact absurd rfl (hrest _ rfl).2.2.1
    next => exact absurd rfl (hrest _ rfl).2.2.2
    next => rfl
  | @present e down sign ds he hsign hds =>
    have hpower : scanPower (sign ++ ds.map digitOctet ++ rest) = .ok (some (down, ds), rest) := by
      simp only [scanPower, scanSign_form hsign hds, hds.takeDigits hrest.ended]
      obtain ⟨d, ds, rfl, -⟩ := hds.exists_cons
      rfl
    rw [List.cons_append]
    rcases he with rfl | rfl <;> exact hpower

theorem ExponentForm.ended {e : Option (Bool × List Nat)} {bs rest : Bytes} (h : ExponentForm e bs)
    (hrest : Loose rest) : Ended (bs ++ rest) ∧ (bs ++ rest).head? ≠ some 46 := by
  cases h with
  | absent => exact ⟨hrest.ended, fun heq => (hrest 46 heq).2.1 rfl⟩
  | present he =>
    rcases he with rfl | rfl
    all_goals exact ⟨by rintro b ⟨⟩; rfl, by simp⟩

theorem FractionForm.ended {ds : List Nat} {bs rest : Bytes} (h : FractionForm ds bs)
    (hrest : Ended rest) : Ended (bs ++ rest) := by
  cases h with
  | absent => exact hrest
  | present =>
    rintro b ⟨⟩
    rfl

/-- A numeral is scanned into its parts, however it is written. -/
theorem Form.scan {x : Lexeme} {bs rest : Bytes} (h : Form x bs) (hrest : Loose rest) :
    scan (bs ++ rest) = .ok (x, rest) := by
  obtain ⟨hwhole, hzero, hfraction, hexponent⟩ := h
  obtain ⟨hended, hpoint⟩ := hexponent.ended hrest
  simp only [List.append_assoc, Lexeme.scan, scanMinus_digits hwhole,
    scanWhole_digits hwhole hzero (hfraction.ended hended), scanFraction_form hfraction hended hpoint,
    scanExponent_form hexponent hrest, bind, Except.bind, pure, Except.pure]

/-- A numeral begins with a minus sign or a digit. -/
theorem Form.exists_cons {x : Lexeme} {bs : Bytes} (h : Form x bs) :
    ∃ b rest, bs = b :: rest ∧ (b = 45 ∨ (digit? b).isSome = true) := by
  obtain @⟨minus, whole, -, -, -, -, hwhole, -, -, -⟩ := h
  cases minus with
  | true => exact ⟨45, _, rfl, .inl rfl⟩
  | false =>
    obtain ⟨d, ds, rfl, hd⟩ := hwhole.exists_cons
    exact ⟨digitOctet d, _, rfl, .inr (by rw [digit?_digitOctet hd]; rfl)⟩

theorem isDigits_digits (n : Nat) : IsDigits (digits n) := by
  obtain ⟨d, ds, he, -⟩ := exists_digits n
  exact ⟨by simp [he], fun _ => lt_of_mem_digits⟩

/-- A whole number is written as a numeral. -/
theorem form_writeInteger (i : Int) :
    Form ⟨decide (i < 0), digits i.natAbs, [], none⟩ (writeInteger i) := by
  have hzero : (digits i.natAbs).head? = some 0 → digits i.natAbs = [0] := by
    obtain ⟨d, ds, he, h0⟩ := exists_digits i.natAbs
    intro hhead
    obtain rfl : d = 0 := by simpa [he] using hhead
    rw [he, (h0 rfl).2]
  have hform : Form ⟨decide (i < 0), digits i.natAbs, [], none⟩ _ :=
    Form.mk (isDigits_digits i.natAbs) hzero .absent .absent
  by_cases hi : i < 0
  · simpa [writeInteger, hi, writeNatural_eq] using hform
  · simpa [writeInteger, hi, writeNatural_eq] using hform

end Lexeme

/-! ### Values -/

/-- The numeral of a whole number that fits a word, with or without a sign. -/
def Numeral.ofInt (i : Int) : Numeral :=
  if i < 0 then .negative (Int64.ofInt i) else .natural (UInt64.ofNat i.natAbs)

theorem Lexeme.value?_writeInteger {i : Int} (hmin : -0x8000000000000000 ≤ i) (hmax : i ≤ maxWord) :
    value? ⟨decide (i < 0), digits i.natAbs, [], none⟩ = some (Numeral.ofInt i) := by
  unfold maxWord at hmax
  have ha : absorb maxWord 0 (digits i.natAbs) = (i.natAbs, []) := absorb_digits (by unfold maxWord; omega)
  simp only [value?, ha, List.isEmpty_nil, Option.isNone_none, and_self, if_true, wholeValue, Numeral.ofInt]
  by_cases hi : i < 0
  · have hr : ¬ (i.natAbs = 0 ∨ 0x8000000000000000 < i.natAbs) := by omega
    have he : -(i.natAbs : Int) = i := by omega
    simp only [hi, decide_true, Bool.not_true, Bool.false_eq_true, if_false, if_true, if_neg hr, he]
  · simp only [hi, decide_false, Bool.not_false, if_true, if_false]

/-- **A numeral is read as what it stands for**, however it is written. -/
theorem Lexeme.Form.lexNumber {x : Lexeme} {bs rest : Bytes} (h : x.Form bs) (hrest : Loose rest) :
    lexNumber (bs ++ rest) = ⟨.number x.value?, rest⟩ := by
  simp only [Json.lexNumber, h.scan hrest]

end LogRelay.Json
