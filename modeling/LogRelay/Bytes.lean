/-!
# Byte strings

Everything that crosses the wire is a `Bytes`, a list of octets.  Words of fixed width are written with
the least significant octet first.

* `Bytes.ofNatLE width n`: the `width` octets of `n`;
* `Bytes.toNatLE bs`: the number that `bs` spells.
-/

namespace LogRelay

/-- A string of octets. -/
abbrev Bytes := List UInt8

namespace Bytes

/-- The lowest `width` octets of `n`, least significant first. -/
def ofNatLE : Nat → Nat → Bytes
  | 0, _ => []
  | width + 1, n => UInt8.ofNat n :: ofNatLE width (n / 256)

/-- The number that the octets spell, least significant first. -/
def toNatLE : Bytes → Nat
  | [] => 0
  | b :: bs => b.toNat + 256 * toNatLE bs

/-- The number of values that `width` octets can have. -/
def count : Nat → Nat
  | 0 => 1
  | width + 1 => 256 * count width

@[simp] theorem length_ofNatLE (width n : Nat) : (ofNatLE width n).length = width := by
  induction width generalizing n with
  | zero => rfl
  | succ width ih => simp [ofNatLE, ih]

/-- The first `width` octets, with zeros where the string is shorter. -/
def takePadded (width : Nat) (bs : Bytes) : Bytes :=
  let head := bs.take width
  head ++ List.replicate (width - head.length) 0

@[simp] theorem length_takePadded (width : Nat) (bs : Bytes) : (takePadded width bs).length = width := by
  simp only [takePadded, List.length_append, List.length_take, List.length_replicate]
  omega

end Bytes

end LogRelay
