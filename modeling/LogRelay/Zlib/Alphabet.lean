import LogRelay.Zlib.Code

/-!
# The alphabets of a block

A block is written in two alphabets.  The first has the 256 octets, the end of the block, and the lengths of
copies; the second the distances of copies.  A length or a distance symbol stands for a range, and the
place in the range follows as a number of a fixed width.

* `lengths`, `distances`: the ranges;
* `Meaning.ofSymbol`: what a symbol of the first alphabet stands for;
* `fixedCode`, `fixedDistanceCode`: the codes that need no description;
* `lengthOrder`: the order in which a block describes the code of its code lengths.
-/

namespace LogRelay.Zlib

/-- The numbers from `base` on that `width` bits can tell apart. -/
structure Range where
  base : Nat
  /-- The number of bits that follow. -/
  width : Nat
deriving DecidableEq, Repr

/-- The ranges of the lengths of copies. -/
def lengths : Array Range :=
  #[⟨3, 0⟩, ⟨4, 0⟩, ⟨5, 0⟩, ⟨6, 0⟩, ⟨7, 0⟩, ⟨8, 0⟩, ⟨9, 0⟩, ⟨10, 0⟩, ⟨11, 1⟩, ⟨13, 1⟩, ⟨15, 1⟩, ⟨17, 1⟩,
    ⟨19, 2⟩, ⟨23, 2⟩, ⟨27, 2⟩, ⟨31, 2⟩, ⟨35, 3⟩, ⟨43, 3⟩, ⟨51, 3⟩, ⟨59, 3⟩, ⟨67, 4⟩, ⟨83, 4⟩, ⟨99, 4⟩,
    ⟨115, 4⟩, ⟨131, 5⟩, ⟨163, 5⟩, ⟨195, 5⟩, ⟨227, 5⟩, ⟨258, 0⟩]

/-- The ranges of the distances of copies. -/
def distances : Array Range :=
  #[⟨1, 0⟩, ⟨2, 0⟩, ⟨3, 0⟩, ⟨4, 0⟩, ⟨5, 1⟩, ⟨7, 1⟩, ⟨9, 2⟩, ⟨13, 2⟩, ⟨17, 3⟩, ⟨25, 3⟩, ⟨33, 4⟩, ⟨49, 4⟩,
    ⟨65, 5⟩, ⟨97, 5⟩, ⟨129, 6⟩, ⟨193, 6⟩, ⟨257, 7⟩, ⟨385, 7⟩, ⟨513, 8⟩, ⟨769, 8⟩, ⟨1025, 9⟩, ⟨1537, 9⟩,
    ⟨2049, 10⟩, ⟨3073, 10⟩, ⟨4097, 11⟩, ⟨6145, 11⟩, ⟨8193, 12⟩, ⟨12289, 12⟩, ⟨16385, 13⟩, ⟨24577, 13⟩]

/-- The symbol that ends a block. -/
def endOfBlock : Nat := 256

/-- The first symbol of a length. -/
def firstLength : Nat := 257

/-- What a symbol of the first alphabet stands for. -/
inductive Meaning where
  | octet (b : UInt8)
  | finish
  /-- A copy with a length in the range at `place`. -/
  | length (place : Nat)
deriving DecidableEq, Repr

def Meaning.ofSymbol (symbol : Nat) : Meaning :=
  if symbol < endOfBlock then .octet (UInt8.ofNat symbol)
  else if symbol = endOfBlock then .finish
  else .length (symbol - firstLength)

/-- The lengths of the fixed words of the first alphabet. -/
def fixedLengths : List Nat :=
  List.replicate 144 8 ++ List.replicate 112 9 ++ List.replicate 24 7 ++ List.replicate 8 8

/-- The fixed code of the first alphabet. -/
def fixedCode : Code := (Code.ofLengths? true fixedLengths).getD .vacant

/-- The fixed code of the distances. -/
def fixedDistanceCode : Code := (Code.ofLengths? true (List.replicate 32 5)).getD .vacant

/-- The order in which the lengths of the words for code lengths are given. -/
def lengthOrder : List Nat := [16, 17, 18, 0, 8, 7, 9, 6, 10, 5, 11, 4, 12, 3, 13, 2, 14, 1, 15]

end LogRelay.Zlib
