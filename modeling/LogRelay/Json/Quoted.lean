import LogRelay.Json.Numeral
import LogRelay.Text.Utf8

/-!
# JSON strings

A string is scanned into `Piece`s up to its closing quote.  Its text then takes two more rules: an escaped
surrogate must stand in a pair, and the octets must be UTF-8.  A reader that only skips a string does not
ask for those two.

* `Quoted.scan`: the pieces up to the closing quote, and what follows;
* `Quoted.text?`: the text of the pieces of a closed string;
* `Quoted.write`: a text as a string.
-/

namespace LogRelay.Json.Quoted

/-- The double quote. -/
def quote : UInt8 := 34

def backslash : UInt8 := 92

/-- A part of a string. -/
inductive Piece where
  | octet (b : UInt8)
  /-- An octet that was written with a backslash and a letter. -/
  | short (b : UInt8)
  /-- A UTF-16 unit that was written in hexadecimal. -/
  | hex (n : Nat)
deriving DecidableEq, Repr

/-- The octet that a letter after a backslash stands for. -/
def short? (b : UInt8) : Option UInt8 :=
  if b = 34 ∨ b = 92 ∨ b = 47 then some b
  else if b = 98 then some 8
  else if b = 102 then some 12
  else if b = 110 then some 10
  else if b = 114 then some 13
  else if b = 116 then some 9
  else none

/-- The value of a hexadecimal digit of either case. -/
def hexValue? (b : UInt8) : Option Nat :=
  let n := b.toNat
  if 48 ≤ n ∧ n ≤ 57 then some (n - 48)
  else if 97 ≤ n ∧ n ≤ 102 then some (n - 87)
  else if 65 ≤ n ∧ n ≤ 70 then some (n - 55)
  else none

/-- The value of four hexadecimal digits. -/
def hexUnit? (a b c d : UInt8) : Option Nat := do
  let a ← hexValue? a
  let b ← hexValue? b
  let c ← hexValue? c
  let d ← hexValue? d
  return ((a * 16 + b) * 16 + c) * 16 + d

/-- What a scan gives: the pieces, and either what follows the closing quote or why there is none. -/
structure Scan where
  pieces : List Piece
  /-- What follows the closing quote. -/
  rest : Except Fault Bytes

/-- A scan with one more piece in front. -/
def Scan.cons (p : Piece) (s : Scan) : Scan := ⟨p :: s.pieces, s.rest⟩

/-- Scans a string from behind its opening quote. -/
def scan : Bytes → Scan
  | [] => ⟨[], .error .ended⟩
  | b :: rest =>
    if b = quote then ⟨[], .ok rest⟩
    else if b = backslash then
      match rest with
      | [] => ⟨[], .error .ended⟩
      | e :: rest =>
        if e = 117 then
          match rest with
          | h₁ :: h₂ :: h₃ :: h₄ :: rest =>
            match hexUnit? h₁ h₂ h₃ h₄ with
            | some n => (scan rest).cons (.hex n)
            | none => ⟨[], .error .malformed⟩
          | _ => ⟨[], .error .ended⟩
        else
          match short? e with
          | some b => (scan rest).cons (.short b)
          | none => ⟨[], .error .malformed⟩
    else if b < 32 then ⟨[], .error .malformed⟩
    else (scan rest).cons (.octet b)

theorem length_scan {bs rest : Bytes} (h : (scan bs).rest = .ok rest) : rest.length < bs.length := by
  fun_induction scan bs <;> simp_all [Scan.cons] <;> omega

/-- Whether a unit is the first half of a pair. -/
def isHigh (n : Nat) : Bool := 0xD800 ≤ n && n ≤ 0xDBFF

/-- Whether a unit is the second half of a pair. -/
def isLow (n : Nat) : Bool := 0xDC00 ≤ n && n ≤ 0xDFFF

/-- The character of a pair of units. -/
def paired (high low : Nat) : Char := Char.ofNat ((high - 0xD800) * 0x400 + (low - 0xDC00) + 0x10000)

/-- The octets that pieces stand for.  `last` is what is wrong if they end inside a pair. -/
def octets (last : Fault) : List Piece → Except Fault Bytes
  | [] => .ok []
  | .octet b :: ps => (octets last ps).map (b :: ·)
  | .short b :: ps => (octets last ps).map (b :: ·)
  | .hex n :: ps =>
    if isLow n then .error .malformed
    else if isHigh n then
      match ps with
      | [] => .error last
      | .hex m :: ps =>
        if isLow m then (octets last ps).map (Utf8.encodeChar (paired n m) ++ ·) else .error .malformed
      | _ :: _ => .error .malformed
    else (octets last ps).map (Utf8.encodeChar (Char.ofNat n) ++ ·)

/-- The text of a closed string. -/
def text? (ps : List Piece) : Option String :=
  match octets .malformed ps with
  | .ok bs => (Utf8.decode? bs).map String.ofList
  | .error _ => none

/-- What a reader of the text meets first in a string that is cut off by `f`. -/
def cutFault (f : Fault) (ps : List Piece) : Fault :=
  match octets f ps with
  | .ok _ => f
  | .error e => e

/-! ### Writing -/

/-- The octet of a lower-case hexadecimal digit. -/
def hexOctet (n : Nat) : UInt8 := if n < 10 then UInt8.ofNat (48 + n) else UInt8.ofNat (87 + n)

/-- A character as it stands in a string: the quote, the backslash and control characters are escaped. -/
def writeChar (c : Char) : Bytes :=
  if c = '"' then [92, 34]
  else if c = '\\' then [92, 92]
  else if c = '\x08' then [92, 98]
  else if c = '\t' then [92, 116]
  else if c = '\n' then [92, 110]
  else if c = '\x0c' then [92, 102]
  else if c = '\r' then [92, 114]
  else if c.toNat < 32 then [92, 117, 48, 48, hexOctet (c.toNat / 16), hexOctet (c.toNat % 16)]
  else Utf8.encodeChar c

/-- A text as a string. -/
def write (s : String) : Bytes := quote :: s.toList.flatMap writeChar ++ [quote]

end LogRelay.Json.Quoted
