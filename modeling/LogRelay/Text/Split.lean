/-!
# Cutting a text

* `splitAt c`: the pieces between all occurrences of `c`;
* `splitLast c`: what stands before and after the last one.
-/

namespace LogRelay.Text

/-- The pieces between the occurrences of `c`. -/
def splitAt (c : Char) : List Char → List (List Char)
  | [] => [[]]
  | x :: xs =>
    if x = c then [] :: splitAt c xs
    else
      match splitAt c xs with
      | piece :: pieces => (x :: piece) :: pieces
      | [] => [[x]]

theorem splitAt_ne_nil (c : Char) (cs : List Char) : splitAt c cs ≠ [] := by
  cases cs with
  | nil => simp [splitAt]
  | cons x xs =>
    simp only [splitAt]
    split
    · simp
    · split <;> simp

/-- What stands before and after the last `c`. -/
def splitLast (c : Char) : List Char → Option (List Char × List Char)
  | [] => none
  | x :: xs =>
    match splitLast c xs with
    | some (before, after) => some (x :: before, after)
    | none => if x = c then some ([], xs) else none

end LogRelay.Text
