import LogRelay.Bytes

/-!
# Bits

A compressed stream is a row of bits: the octets in order, each from its lowest bit to its highest.
Numbers stand in it with their lowest bit first.

* `ofBytes`, `toBytes`: between octets and bits; the last octet is filled up with zeros;
* `ofNat width n`, `toNat`: between numbers and bits;
* `takeNat width`: reads a number.
-/

namespace LogRelay.Zlib

/-- A row of bits. -/
abbrev Bits := List Bool

/-- Why a stream was refused. -/
inductive Fault where
  | corrupt
  | incomplete
deriving DecidableEq, Repr

/-- The wording of a fault. -/
def Fault.message : Fault → String
  | corrupt => "corrupt deflate stream"
  | incomplete => "incomplete deflate stream"

namespace Bits

/-- The lowest `width` bits of a number. -/
def ofNat : (width : Nat) → Nat → Bits
  | 0, _ => []
  | width + 1, n => (n % 2 == 1) :: ofNat width (n / 2)

/-- The number of a bit. -/
def value (b : Bool) : Nat := if b then 1 else 0

/-- The number that bits spell. -/
def toNat : Bits → Nat
  | [] => 0
  | b :: bs => value b + 2 * toNat bs

/-- The bits of octets. -/
def ofBytes (bs : Bytes) : Bits := bs.flatMap fun b => ofNat 8 b.toNat

/-- The octets of bits. -/
def toBytes : Bits → Bytes
  | b₀ :: b₁ :: b₂ :: b₃ :: b₄ :: b₅ :: b₆ :: b₇ :: rest =>
    UInt8.ofNat (toNat [b₀, b₁, b₂, b₃, b₄, b₅, b₆, b₇]) :: toBytes rest
  | [] => []
  | last => [UInt8.ofNat (toNat last)]

/-- The next `width` bits as a number, and the bits after them. -/
def takeNat : (width : Nat) → Bits → Except Fault (Nat × Bits)
  | 0, bs => .ok (0, bs)
  | _ + 1, [] => .error .incomplete
  | width + 1, b :: bs =>
    match takeNat width bs with
    | .ok (n, rest) => .ok (value b + 2 * n, rest)
    | .error f => .error f

/-- Reads one number of each given width. -/
def takeNats (width : Nat) : (count : Nat) → Bits → Except Fault (List Nat × Bits)
  | 0, bs => .ok ([], bs)
  | count + 1, bs => do
    let (n, bs) ← takeNat width bs
    let (ns, bs) ← takeNats width count bs
    return (n :: ns, bs)

/-- The number of values that `width` bits can have. -/
def count : Nat → Nat
  | 0 => 1
  | width + 1 => 2 * count width

@[simp] theorem length_ofNat (width n : Nat) : (ofNat width n).length = width := by
  induction width generalizing n with
  | zero => rfl
  | succ width ih => simp [ofNat, ih]

/-- Reading gives what was written, whatever follows. -/
theorem takeNat_ofNat (width n : Nat) (h : n < count width) (rest : Bits) :
    takeNat width (ofNat width n ++ rest) = .ok (n, rest) := by
  induction width generalizing n with
  | zero =>
    have hn : n = 0 := by simpa [count] using h
    simp [hn, ofNat, takeNat]
  | succ width ih =>
    have hd : n / 2 < count width := by
      apply (Nat.div_lt_iff_lt_mul (by decide : 0 < 2)).2
      simpa [count, Nat.mul_comm] using h
    simp only [ofNat, List.cons_append, takeNat, ih _ hd, value]
    rcases Nat.mod_two_eq_zero_or_one n with h₂ | h₂ <;> simp [h₂] <;> omega

theorem length_takeNat {width : Nat} {bs : Bits} {r : Nat × Bits} (h : takeNat width bs = .ok r) :
    bs.length = r.2.length + width := by
  induction width generalizing bs r with
  | zero =>
    simp only [takeNat] at h
    cases h
    rfl
  | succ width ih =>
    cases bs with
    | nil => simp [takeNat] at h
    | cons b bs =>
      simp only [takeNat] at h
      split at h
      next n rest hr =>
        cases h
        have := ih hr
        simp only [List.length_cons] at this ⊢
        omega
      next => cases h

end Bits

end LogRelay.Zlib
