import LogRelay.Bytes

/-!
# JSON numerals

A numeral is scanned into a `Lexeme`, its parts without any arithmetic, and a lexeme has a value if that is
in range.  A whole number that fits a 64-bit word keeps its exact value; any other numeral becomes a real
number, from as many leading digits as fit a word and a power of ten.

* `Lexeme.scan`: the numeral at the front of a byte string;
* `Lexeme.value?`: what it stands for.
-/

namespace LogRelay.Json

/-- Why reading stopped. -/
inductive Fault where
  | malformed
  /-- The text ended inside a value. -/
  | ended
deriving DecidableEq, Repr

/-- The fault of finding `rest` where something else has to stand. -/
def faultAt : Bytes → Fault
  | [] => .ended
  | _ :: _ => .malformed

/-- The value of a numeral. -/
inductive Numeral where
  | natural (n : UInt64)
  | negative (n : Int64)
  | real (x : Float)
deriving Repr

/-- The digit that an octet spells. -/
def digit? (b : UInt8) : Option Nat :=
  if 48 ≤ b.toNat ∧ b.toNat ≤ 57 then some (b.toNat - 48) else none

/-- The digits at the front and what follows them. -/
def takeDigits : Bytes → List Nat × Bytes
  | [] => ([], [])
  | b :: rest =>
    match digit? b with
    | some d => (d :: (takeDigits rest).1, (takeDigits rest).2)
    | none => ([], b :: rest)

theorem length_takeDigits (bs : Bytes) : (takeDigits bs).2.length ≤ bs.length := by
  induction bs with
  | nil => simp [takeDigits]
  | cons b rest ih =>
    simp only [takeDigits]
    split
    · simp only [List.length_cons]; omega
    · simp

/-- The parts of a numeral. -/
structure Lexeme where
  minus : Bool
  whole : List Nat
  fraction : List Nat
  /-- Whether the exponent has a minus sign, and its digits. -/
  exponent : Option (Bool × List Nat)
deriving Repr

namespace Lexeme

/-- The optional minus sign. -/
def scanMinus : Bytes → Bool × Bytes
  | 45 :: rest => (true, rest)
  | bs => (false, bs)

/-- The digits before the point: at least one, and a zero only by itself. -/
def scanWhole (bs : Bytes) : Except Fault (List Nat × Bytes) :=
  match takeDigits bs with
  | ([], rest) => .error (faultAt rest)
  | (0 :: _ :: _, _) => .error .malformed
  | (ds, rest) => .ok (ds, rest)

/-- The optional point with at least one digit after it. -/
def scanFraction : Bytes → Except Fault (List Nat × Bytes)
  | 46 :: bs =>
    match takeDigits bs with
    | ([], rest) => .error (faultAt rest)
    | (ds, rest) => .ok (ds, rest)
  | bs => .ok ([], bs)

/-- The optional sign of an exponent; `true` for minus. -/
def scanSign : Bytes → Bool × Bytes
  | 45 :: rest => (true, rest)
  | 43 :: rest => (false, rest)
  | bs => (false, bs)

/-- The digits of an exponent, at least one. -/
def scanPower (bs : Bytes) : Except Fault (Option (Bool × List Nat) × Bytes) :=
  let (minus, bs) := scanSign bs
  match takeDigits bs with
  | ([], rest) => .error (faultAt rest)
  | (ds, rest) => .ok (some (minus, ds), rest)

/-- The optional exponent. -/
def scanExponent : Bytes → Except Fault (Option (Bool × List Nat) × Bytes)
  | 101 :: bs => scanPower bs
  | 69 :: bs => scanPower bs
  | bs => .ok (none, bs)

/-- The numeral at the front of a byte string and what follows it. -/
def scan (bs : Bytes) : Except Fault (Lexeme × Bytes) := do
  let (minus, bs) := scanMinus bs
  let (whole, bs) ← scanWhole bs
  let (fraction, bs) ← scanFraction bs
  let (exponent, bs) ← scanExponent bs
  return (⟨minus, whole, fraction, exponent⟩, bs)

/-! ### Values -/

/-- Appends digits to `n` as long as the result is at most `limit`; gives also the digits left over. -/
def absorb (limit : Nat) : Nat → List Nat → Nat × List Nat
  | n, [] => (n, [])
  | n, d :: ds => if limit < n * 10 + d then (n, d :: ds) else absorb limit (n * 10 + d) ds

/-- The greatest number of a 64-bit word. -/
def maxWord : Nat := 0xFFFFFFFFFFFFFFFF

/-- The greatest exponent that is looked at. -/
def maxExponent : Nat := 0x7FFFFFFF

/-- A power of ten. -/
def tenTo (k : Nat) : Float := Float.ofScientific 1 false k

/-- `x * 10 ^ e`, or `none` if that is beyond every float. -/
def scaled (x : Float) (e : Int) : Option Float :=
  if 0 ≤ e then
    if e ≤ 308 then
      let y := x * tenTo e.toNat
      if y.isInf then none else some y
    else if x == 0 then some x
    else none
  else if -308 ≤ e then some (x / tenTo (-e).toNat)
  else if x == 0 then some x
  else scaled (x / tenTo 308) (e + 308)
termination_by (-e).toNat

/-- The float of a word times a power of ten, with its sign. -/
def assemble (minus : Bool) (n : Nat) (e : Int) : Option Numeral :=
  (scaled (UInt64.ofNat n).toFloat e).map fun x => .real (if minus then -x else x)

/-- The value of `n * 10 ^ e` times the power of ten that the exponent names. -/
def withExponent (minus : Bool) (n : Nat) (e : Int) : Option (Bool × List Nat) → Option Numeral
  | none => assemble minus n e
  | some (down, ds) =>
    match absorb maxExponent 0 ds with
    | (k, []) => assemble minus n (if down then e - k else e + k)
    | (_, _ :: _) =>
      -- an exponent beyond all bounds
      if n ≠ 0 ∧ !down then none else some (.real (if minus then -0.0 else 0.0))

/-- The value of a whole number that fits a word. -/
def wholeValue (minus : Bool) (n : Nat) : Numeral :=
  if !minus then .natural (UInt64.ofNat n)
  else if n = 0 ∨ 0x8000000000000000 < n then .real (-(UInt64.ofNat n).toFloat)
  else .negative (Int64.ofInt (-n))

/-- The value of a numeral, or `none` if it is out of range. -/
def value? (x : Lexeme) : Option Numeral :=
  let (n, left) := absorb maxWord 0 x.whole
  if left.isEmpty ∧ x.fraction.isEmpty ∧ x.exponent.isNone then some (wholeValue x.minus n)
  else
    let (n', left') := absorb maxWord n x.fraction
    withExponent x.minus n' (left.length - (x.fraction.length - left'.length : Nat)) x.exponent

/-! ### What is scanned gets shorter -/

theorem length_scanSign (bs : Bytes) : (scanSign bs).2.length ≤ bs.length := by
  unfold scanSign
  split <;> simp

theorem length_scanWhole {bs : Bytes} {r : List Nat × Bytes} (h : scanWhole bs = .ok r) :
    r.2.length ≤ bs.length := by
  have hd := length_takeDigits bs
  unfold scanWhole at h
  split at h
  · cases h
  · cases h
  next hds =>
    cases h
    rw [hds] at hd
    exact hd

theorem length_scanFraction {bs : Bytes} {r : List Nat × Bytes} (h : scanFraction bs = .ok r) :
    r.2.length ≤ bs.length := by
  unfold scanFraction at h
  split at h
  next rest =>
    have hd := length_takeDigits rest
    split at h
    · cases h
    next hds =>
      cases h
      rw [hds] at hd
      simp only [List.length_cons] at hd ⊢
      omega
  next => cases h; exact Nat.le_refl _

theorem length_scanPower {bs : Bytes} {r : Option (Bool × List Nat) × Bytes}
    (h : scanPower bs = .ok r) : r.2.length ≤ bs.length := by
  have hs := length_scanSign bs
  have hd := length_takeDigits (scanSign bs).2
  simp only [scanPower] at h
  split at h
  · cases h
  next hds =>
    cases h
    rw [hds] at hd
    simp only at hd ⊢
    omega

theorem length_scanExponent {bs : Bytes} {r : Option (Bool × List Nat) × Bytes}
    (h : scanExponent bs = .ok r) : r.2.length ≤ bs.length := by
  unfold scanExponent at h
  split at h
  · exact Nat.le_succ_of_le (length_scanPower h)
  · exact Nat.le_succ_of_le (length_scanPower h)
  · cases h; exact Nat.le_refl _

end Lexeme

end LogRelay.Json
