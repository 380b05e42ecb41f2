import LogRelay.Bytes
import Std.Data.HashMap

/-!
# Recipes

A `Step` makes octets: one by itself, or a copy of octets made before.  A recipe is a list of steps, and
compressing is finding a short one.

* `expand`: what a recipe makes;
* `recipe`: a recipe for given data.  A table proposes for each place the last place before it with the same
  three octets, and a proposal is used only as far as the octets there agree.
-/

namespace LogRelay.Zlib

/-- A step of a recipe. -/
inductive Step where
  | literal (b : UInt8)
  /-- As many octets as `length`, each a copy of the one `distance` before it. -/
  | copy (length distance : Nat)
deriving DecidableEq, Repr

/-- The octet `distance` before the end of what was made; before its beginning there are zeros. -/
def before (made : Array UInt8) (distance : Nat) : UInt8 :=
  if distance ≤ made.size then made.getD (made.size - distance) 0 else 0

/-- Copies octets one by one, so that a copy may overlap its model. -/
def copyFrom (distance : Nat) : (length : Nat) → Array UInt8 → Array UInt8
  | 0, made => made
  | length + 1, made => copyFrom distance length (made.push (before made distance))

/-- Takes one step. -/
def Step.apply (made : Array UInt8) : Step → Array UInt8
  | literal b => made.push b
  | copy length distance => copyFrom distance length made

/-- What a recipe makes. -/
def expand (steps : List Step) : Bytes := (steps.foldl Step.apply #[]).toList

/-! ### Finding a recipe -/

/-- The greatest length of a copy. -/
def maxLength : Nat := 258

/-- The least length of a copy. -/
def minLength : Nat := 3

/-- The greatest distance of a copy. -/
def maxDistance : Nat := 32768

/-- How many octets agree from `i` and from `j` on, up to a limit. -/
def agreement (data : Array UInt8) : (limit i j : Nat) → Nat
  | 0, _, _ => 0
  | limit + 1, i, j =>
    if hi : i < data.size then
      if hj : j < data.size then
        if data[i] = data[j] then agreement data limit (i + 1) (j + 1) + 1 else 0
      else 0
    else 0

/-- The three octets at a place. -/
def key? (data : Array UInt8) (i : Nat) : Option (UInt8 × UInt8 × UInt8) := do
  return (← data[i]?, ← data[i + 1]?, ← data[i + 2]?)

/-- For each place the last one before it with the same three octets. -/
def proposals (data : Array UInt8) : Array (Option Nat) :=
  let start : Std.HashMap (UInt8 × UInt8 × UInt8) Nat × Array (Option Nat) := (∅, #[])
  ((List.range data.size).foldl (fun (seen, made) i =>
    match key? data i with
    | some k => (seen.insert k i, made.push seen[k]?)
    | none => (seen, made.push none)) start).2

/-- The copy at a place, if the proposal for it is any good. -/
def copyAt? (data : Array UInt8) (proposed : Option Nat) (i : Nat) : Option (Nat × Nat) :=
  match proposed with
  | none => none
  | some j =>
    let length := agreement data maxLength j i
    if minLength ≤ length ∧ j < i ∧ i - j ≤ maxDistance then some (length, i - j) else none

/-- The copies that are used are not empty. -/
theorem minLength_le_of_copyAt? {data : Array UInt8} {proposed : Option Nat} {i : Nat}
    {c : Nat × Nat} (h : copyAt? data proposed i = some c) : minLength ≤ c.1 := by
  unfold copyAt? at h
  split at h
  · cases h
  · simp only at h
    split at h
    next hc => cases h; exact hc.1
    next => cases h

/-- A recipe for the data from `i` on. -/
def recipeFrom (data : Array UInt8) (proposed : Array (Option Nat)) (i : Nat) : List Step :=
  if _h : i < data.size then
    match _hc : copyAt? data (proposed.getD i none) i with
    | some (length, distance) => .copy length distance :: recipeFrom data proposed (i + length)
    | none => .literal data[i] :: recipeFrom data proposed (i + 1)
  else []
termination_by data.size - i
decreasing_by
  · have := minLength_le_of_copyAt? _hc
    simp only [minLength] at this
    omega
  · omega

def recipe (data : Bytes) : List Step :=
  let data := data.toArray
  recipeFrom data (proposals data) 0

end LogRelay.Zlib
