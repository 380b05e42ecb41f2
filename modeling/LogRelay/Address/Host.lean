import LogRelay.Text.Decimal
import LogRelay.Text.Hexadecimal
import LogRelay.Text.Split

/-!
# Hosts

A host is given by its number or by its name.  A number has four octets between points, or eight words between
colons.  Four octets may also be written in a looser way, with fewer parts and in other bases.

* `Host.octets?`, `Host.words?`: the number of a host;
* `Host.isLooseNumber`: whether a text stands for four octets in the looser way;
* `Host.isName`: whether a text can be the name of a host.
-/

namespace LogRelay.Host

/-- The value of the digits of a numeral, if there are any. -/
def numeral? (base : Nat) : List Char → Option Nat
  | [] => none
  | cs => cs.foldlM (fun acc c => ((Text.hexDigit? c).filter (· < base)).map (acc * base + ·)) 0

/-! ### Four octets -/

/-- An octet, without needless zeros. -/
def octet? (cs : List Char) : Option Nat :=
  if cs.head? = some '0' ∧ cs ≠ ['0'] then none else (numeral? 10 cs).filter (· < 256)

/-- Four octets between points. -/
def octets? (cs : List Char) : Option (List Nat) :=
  let parts := Text.splitAt '.' cs
  if parts.length = 4 then parts.mapM octet? else none

/-- A number in base eight after a zero, in base sixteen after a zero and an `x`, and in base ten otherwise. -/
def looseNumeral? : List Char → Option Nat
  | '0' :: c :: cs => if c = 'x' ∨ c = 'X' then numeral? 16 cs else numeral? 8 (c :: cs)
  | cs => numeral? 10 cs

/-- Whether a text stands for four octets: for one in each part but the last, and for the others in that. -/
def isLooseNumber (cs : List Char) : Bool :=
  match (Text.splitAt '.' cs).mapM looseNumeral? with
  | some parts =>
    parts.length ≤ 4 && parts.dropLast.all (· < 256) && parts.getLast?.all (· < 1 <<< (8 * (5 - parts.length)))
  | none => false

/-! ### Eight words -/

/-- A word of at most four digits. -/
def word? (cs : List Char) : Option Nat := if cs.length ≤ 4 then numeral? 16 cs else none

/-- Words, the last two of which may be given as four octets. -/
def joinWords? : List (List Char) → Option (List Nat)
  | [] => some []
  | [piece] =>
    match octets? piece with
    | some [a, b, c, d] => some [a * 256 + b, c * 256 + d]
    | _ => (word? piece).map fun w => [w]
  | piece :: pieces => do return (← word? piece) :: (← joinWords? pieces)

/-- What stands before and after the first two colons in a row. -/
def splitGap : List Char → Option (List Char × List Char)
  | ':' :: ':' :: rest => some ([], rest)
  | c :: cs => (splitGap cs).map fun p => (c :: p.1, p.2)
  | [] => none

/-- The pieces between colons. -/
def pieces (cs : List Char) : List (List Char) := if cs.isEmpty then [] else Text.splitAt ':' cs

/-- Eight words between colons.  Two colons in a row stand for all words that are missing, which are zero. -/
def words? (cs : List Char) : Option (List Nat) :=
  match splitGap cs with
  | none => (joinWords? (pieces cs)).filter fun ws => ws.length == 8
  | some (before, after) => do
    let head ← (pieces before).mapM word?
    let tail ← joinWords? (pieces after)
    if head.length + tail.length < 8 then
      some (head ++ List.replicate (8 - head.length - tail.length) 0 ++ tail)
    else none

/-! ### Names -/

/-- The greatest length of a name. -/
def maxNameLength : Nat := 253

/-- The greatest length of a label in a name. -/
def maxLabelLength : Nat := 63

/-- The labels of a name, which may end with a point. -/
def labels (cs : List Char) : List (List Char) :=
  let all := Text.splitAt '.' cs
  if all.getLast? = some [] then all.dropLast else all

/-- The number of characters of labels and of the points between them. -/
def nameLength (labels : List (List Char)) : Nat := (List.intercalate ['.'] labels).length

/-- Whether a character can be in a name. -/
def isNameChar (c : Char) : Bool := c.isAlphanum || c == '-' || c == '_' || c == '.'

/-- Whether a text can be the name of a host. -/
def isName (cs : List Char) : Bool :=
  cs == ['.'] ||
    cs.head? != some '-' && cs.all isNameChar && nameLength (labels cs) ≤ maxNameLength &&
      (labels cs).all fun label => !label.isEmpty && label.length ≤ maxLabelLength

/-- Whether a text is the name by which every host knows itself. -/
def isLocal (cs : List Char) : Bool := cs.map Char.toLower == "localhost".toList

/-- A gap fills up eight words, and the last two may be octets. -/
example : words? ['1', ':', ':', '1', '.', '0', '.', '0', '.', '2'] = some [1, 0, 0, 0, 0, 0, 0x100, 2] := by decide

end LogRelay.Host
