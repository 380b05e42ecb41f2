import LogRelay.Bytes

/-!
# Base64

Reading the standard alphabet in its canonical form only: the length is a multiple of four after padding,
padding stands at the end, and the bits that the last symbol does not need are zero.

The text is read in groups of four symbols.  Every group but the last must be four symbols of the
alphabet; the last one may be short or end in padding, and its faults are told apart.
-/

namespace LogRelay.Base64

/-- Why a text was refused. -/
inductive Fault where
  /-- An octet that may not stand at this offset. -/
  | symbol (octet : UInt8) (offset : Nat)
  /-- A lone symbol is left over. -/
  | length (n : Nat)
  /-- The last symbol has bits set that encode nothing. -/
  | lastSymbol (octet : UInt8) (offset : Nat)
  /-- The padding is missing or too short. -/
  | padding
deriving DecidableEq, Repr

/-- The wording of a fault. -/
def Fault.message : Fault → String
  | .symbol octet offset => s!"Invalid symbol {octet.toNat}, offset {offset}."
  | .length n => s!"Invalid input length: {n}"
  | .lastSymbol octet offset => s!"Invalid last symbol {octet.toNat}, offset {offset}."
  | .padding => "Invalid padding"

/-- The octet that pads a group, an equals sign. -/
def pad : UInt8 := 61

/-- The six bits that a symbol of the alphabet stands for. -/
def value? (b : UInt8) : Option Nat :=
  let n := b.toNat
  if 65 ≤ n ∧ n ≤ 90 then some (n - 65)
  else if 97 ≤ n ∧ n ≤ 122 then some (n - 97 + 26)
  else if 48 ≤ n ∧ n ≤ 57 then some (n - 48 + 52)
  else if n = 43 then some 62
  else if n = 47 then some 63
  else none

/-- The value of a symbol at an offset, or the fault that it is none. -/
def valueAt (offset : Nat) (b : UInt8) : Except Fault Nat :=
  match value? b with
  | some v => .ok v
  | none => .error (.symbol b offset)

/-- The three octets of four symbols. -/
def unpack (a b c d : Nat) : Bytes :=
  let n := ((a * 64 + b) * 64 + c) * 64 + d
  [UInt8.ofNat (n / 65536), UInt8.ofNat (n / 256), UInt8.ofNat n]

/-- The symbols of the last group before its padding, with the number of pads, as far as it is well
formed.  `offset` is where the group starts, `seen` the values read so far, `pads` the pads so far. -/
def scanLast (offset : Nat) : (seen : List (UInt8 × Nat)) → (pads : Nat) → Bytes →
    Except Fault (List (UInt8 × Nat) × Nat)
  | seen, pads, [] => .ok (seen, pads)
  | seen, pads, b :: rest =>
    if b = pad then
      if seen.length + pads < 2 then .error (.symbol b (offset + seen.length + pads))
      else scanLast offset seen (pads + 1) rest
    else if 0 < pads then .error (.symbol pad (offset + seen.length))
    else
      match value? b with
      | none => .error (.symbol b (offset + seen.length))
      | some v => scanLast offset (seen ++ [(b, v)]) pads rest

/-- The octets of the last group, which starts at `offset`. -/
def decodeLast (offset : Nat) (group : Bytes) : Except Fault Bytes := do
  let (seen, pads) ← scanLast offset [] 0 group
  match seen with
  | [] => .ok []
  | [_] => .error (.length (offset + 1))
  | [(_, a), (x, b)] =>
    if pads ≠ 2 then .error .padding
    else if b % 16 ≠ 0 then .error (.lastSymbol x (offset + 1))
    else .ok ((unpack a b 0 0).take 1)
  | [(_, a), (_, b), (x, c)] =>
    if pads ≠ 1 then .error .padding
    else if c % 4 ≠ 0 then .error (.lastSymbol x (offset + 2))
    else .ok ((unpack a b c 0).take 2)
  | (_, a) :: (_, b) :: (_, c) :: (_, d) :: _ => .ok (unpack a b c d)

/-- Reads group after group; what is left when no full group follows another is the last one. -/
def decodeGroups : (offset : Nat) → Bytes → Except Fault Bytes
  | offset, a :: b :: c :: d :: e :: rest => do
    let head := unpack (← valueAt offset a) (← valueAt (offset + 1) b) (← valueAt (offset + 2) c)
      (← valueAt (offset + 3) d)
    return head ++ (← decodeGroups (offset + 4) (e :: rest))
  | offset, group => decodeLast offset group

/-- The octets that a Base64 text stands for.  A single foreign octet after the last full group is reported
first, whatever else is wrong. -/
def decode (text : Bytes) : Except Fault Bytes :=
  match text.getLast? with
  | some b =>
    if text.length % 4 = 1 ∧ b ≠ pad ∧ (value? b).isNone then .error (.symbol b (text.length - 1))
    else decodeGroups 0 text
  | none => .ok []

end LogRelay.Base64
