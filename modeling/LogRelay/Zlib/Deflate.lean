import LogRelay.Zlib.Inflate

/-!
# Compressing

Data is compressed into a single block in the fixed codes.

* `writeSteps`: steps in the fixed codes;
* `deflate`: data as a stream.
-/

namespace LogRelay.Zlib

/-- The words of a code by their symbols. -/
def Code.wordTable (c : Code) (size : Nat) : Array Bits :=
  c.words.foldl (fun t p => t.setIfInBounds p.1 p.2) (Array.replicate size [])

/-- The fixed words of the first alphabet. -/
def fixedWords : Array Bits := fixedCode.wordTable 288

/-- The fixed words of the distances. -/
def fixedDistanceWords : Array Bits := fixedDistanceCode.wordTable 32

/-- The index of the last range that starts at or before `n`. -/
def rangeIndex (ranges : Array Range) (n : Nat) : Nat :=
  (ranges.toList.takeWhile fun r => r.base ≤ n).length - 1

/-- A number as a symbol of `words`, whose first is `first`, and its place in the range. -/
def writeRange (words : Array Bits) (first : Nat) (ranges : Array Range) (n : Nat) : Bits :=
  let i := rangeIndex ranges n
  let r := ranges.getD i ⟨0, 0⟩
  words.getD (first + i) [] ++ Bits.ofNat r.width (n - r.base)

/-- A step in the fixed codes. -/
def writeStep : Step → Bits
  | .literal b => fixedWords.getD b.toNat []
  | .copy length distance =>
    writeRange fixedWords firstLength lengths length ++
      writeRange fixedDistanceWords 0 distances distance

/-- Steps in the fixed codes, and the end of the block. -/
def writeSteps (steps : List Step) : Bits := steps.flatMap writeStep ++ fixedWords.getD endOfBlock []

/-- The header of a stream: a window of 32768 octets, and the mark of a quick compressor. -/
def header : Bytes := [0x78, 0x5E]

/-- Data as a stream. -/
def deflate (data : Bytes) : Bytes :=
  let block := Bits.ofNat 1 1 ++ Bits.ofNat 2 1 ++ writeSteps (recipe data)
  header ++ Bits.toBytes block ++ (Checksum.ofBytes data).write

end LogRelay.Zlib
