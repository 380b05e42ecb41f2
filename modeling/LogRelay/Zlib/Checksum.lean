import LogRelay.Bytes

/-!
# The checksum of a stream

Two sums modulo a prime: of the octets, and of the partial sums.
-/

namespace LogRelay.Zlib

/-- The two sums. -/
structure Checksum where
  /-- One and the octets. -/
  low : Nat := 1
  /-- The values that `low` took. -/
  high : Nat := 0
deriving DecidableEq, Repr

namespace Checksum

/-- The greatest prime below `2 ^ 16`. -/
def modulus : Nat := 65521

/-- The sums with one more octet. -/
def add (c : Checksum) (b : UInt8) : Checksum :=
  let low := (c.low + b.toNat) % modulus
  ⟨low, (c.high + low) % modulus⟩

/-- The sums of octets. -/
def ofBytes (bs : Bytes) : Checksum := bs.foldl add {}

/-- The sums in writing: four octets, the highest first. -/
def write (c : Checksum) : Bytes := (Bytes.ofNatLE 4 (c.high * 65536 + c.low)).reverse

end Checksum

end LogRelay.Zlib
