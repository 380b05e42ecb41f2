/-!
# Decimal numerals

`parseDecimal limit cs` reads a numeral of a type whose greatest value is `limit`: an optional plus sign
and at least one ASCII digit.  It reads from left to right and stops at the first fault, so a numeral that
is both too large and malformed is reported for whichever shows first.

`isReal cs` tells whether a text is a real number, infinity or not a number.
-/

namespace LogRelay.Text

/-- Why a numeral was refused. -/
inductive NumeralFault where
  | empty
  | notDigit
  | tooLarge
deriving DecidableEq, Repr

/-- The wording of a fault. -/
def NumeralFault.message : NumeralFault → String
  | .empty => "cannot parse integer from empty string"
  | .notDigit => "invalid digit found in string"
  | .tooLarge => "number too large to fit in target type"

/-- The greatest number of a 64-bit word. -/
def maxWord : Nat := 0xFFFFFFFFFFFFFFFF

/-- The value of an ASCII digit. -/
def digit? (c : Char) : Option Nat :=
  if '0' ≤ c && c ≤ '9' then some (c.toNat - '0'.toNat) else none

/-- Reads digits onto the value `acc`. -/
def readDigits (limit : Nat) : Nat → List Char → Except NumeralFault Nat
  | acc, [] => .ok acc
  | acc, c :: cs =>
    match digit? c with
    | none => .error .notDigit
    | some d => if limit < acc * 10 + d then .error .tooLarge else readDigits limit (acc * 10 + d) cs

/-- Reads a numeral of at most `limit`. -/
def parseDecimal (limit : Nat) : List Char → Except NumeralFault Nat
  | [] => .error .empty
  | ['+'] => .error .notDigit
  | '+' :: cs => readDigits limit 0 cs
  | cs => readDigits limit 0 cs

/-! ### Real numbers -/

/-- Whether a character is an ASCII digit. -/
def isDigit (c : Char) : Bool := (digit? c).isSome

/-- What is left after a sign, if there is one. -/
def afterSign : List Char → List Char
  | '+' :: cs | '-' :: cs => cs
  | cs => cs

/-- Whether a text is nothing, or the letter `e` and a whole number. -/
def isExponent : List Char → Bool
  | [] => true
  | e :: cs => (e == 'e' || e == 'E') && !(afterSign cs).isEmpty && (afterSign cs).all isDigit

/-- Whether a text without a sign is a number: digits, among which there may be a point, and maybe an
exponent. -/
def isUnsignedReal (cs : List Char) : Bool :=
  let whole := cs.takeWhile isDigit
  match cs.drop whole.length with
  | '.' :: rest =>
    let part := rest.takeWhile isDigit
    !(whole.isEmpty && part.isEmpty) && isExponent (rest.drop part.length)
  | rest => !whole.isEmpty && isExponent rest

/-- Whether a text is a real number, infinity or not a number, in letters of either case. -/
def isReal (cs : List Char) : Bool :=
  let cs := afterSign cs
  ["inf", "infinity", "nan"].contains (String.ofList (cs.map Char.toLower)) || isUnsignedReal cs

end LogRelay.Text
