import LogRelay.Bytes

/-!
# UTF-8

`encode` writes a text as octets.  `front` takes one character off the front of a byte string.  Where the
bytes are not UTF-8 it takes the longest piece that could still have begun a character, or one byte if
there is none, and calls it `ill`.

* `encode`: the octets of a text;
* `decodeLossy`: the text of any byte string, each ill piece replaced by U+FFFD;
* `decode?`: the text of a byte string that is UTF-8 throughout.
-/

namespace LogRelay.Utf8

/-! ### Writing -/

/-- The octets of a character. -/
def encodeChar (c : Char) : Bytes :=
  let n := c.toNat
  if n < 0x80 then [UInt8.ofNat n]
  else if n < 0x800 then [UInt8.ofNat (0xC0 + n / 64), UInt8.ofNat (0x80 + n % 64)]
  else if n < 0x10000 then
    [UInt8.ofNat (0xE0 + n / 4096), UInt8.ofNat (0x80 + n / 64 % 64), UInt8.ofNat (0x80 + n % 64)]
  else
    [UInt8.ofNat (0xF0 + n / 262144), UInt8.ofNat (0x80 + n / 4096 % 64),
      UInt8.ofNat (0x80 + n / 64 % 64), UInt8.ofNat (0x80 + n % 64)]

/-- The octets of a row of characters. -/
def encode (cs : List Char) : Bytes := cs.flatMap encodeChar

/-- The octets of a text. -/
def ofString (s : String) : Bytes := encode s.toList

/-! ### Reading -/

/-- What stands at the front of a byte string. -/
inductive Piece where
  | char (c : Char)
  /-- Bytes that are part of no character. -/
  | ill
deriving DecidableEq, Repr

/-- Whether a byte may follow the first byte of a character at any place but the second. -/
def isContinuation (b : UInt8) : Bool := 0x80 ≤ b && b ≤ 0xBF

/-- The second bytes that may follow `b` in a character of three bytes. -/
def secondOfThree (b second : UInt8) : Bool :=
  if b = 0xE0 then 0xA0 ≤ second && second ≤ 0xBF
  else if b = 0xED then 0x80 ≤ second && second ≤ 0x9F
  else isContinuation second

/-- The second bytes that may follow `b` in a character of four bytes. -/
def secondOfFour (b second : UInt8) : Bool :=
  if b = 0xF0 then 0x90 ≤ second && second ≤ 0xBF
  else if b = 0xF4 then 0x80 ≤ second && second ≤ 0x8F
  else isContinuation second

/-- The low six bits of a byte. -/
def low6 (b : UInt8) : Nat := b.toNat % 64

/-- The first piece of a byte string and the number of bytes after its first one that belong to it. -/
def front (b : UInt8) : Bytes → Piece × Nat
  | rest =>
    if b < 0x80 then (.char (Char.ofNat b.toNat), 0)
    else if 0xC2 ≤ b && b ≤ 0xDF then
      match rest with
      | b₁ :: _ =>
        if isContinuation b₁ then (.char (Char.ofNat (b.toNat % 32 * 64 + low6 b₁)), 1) else (.ill, 0)
      | [] => (.ill, 0)
    else if 0xE0 ≤ b && b ≤ 0xEF then
      match rest with
      | b₁ :: rest₁ =>
        if secondOfThree b b₁ then
          match rest₁ with
          | b₂ :: _ =>
            if isContinuation b₂ then
              (.char (Char.ofNat ((b.toNat % 16 * 64 + low6 b₁) * 64 + low6 b₂)), 2)
            else (.ill, 1)
          | [] => (.ill, 1)
        else (.ill, 0)
      | [] => (.ill, 0)
    else if 0xF0 ≤ b && b ≤ 0xF4 then
      match rest with
      | b₁ :: rest₁ =>
        if secondOfFour b b₁ then
          match rest₁ with
          | b₂ :: rest₂ =>
            if isContinuation b₂ then
              match rest₂ with
              | b₃ :: _ =>
                if isContinuation b₃ then
                  (.char (Char.ofNat (((b.toNat % 8 * 64 + low6 b₁) * 64 + low6 b₂) * 64 + low6 b₃)), 3)
                else (.ill, 2)
              | [] => (.ill, 2)
            else (.ill, 1)
          | [] => (.ill, 1)
        else (.ill, 0)
      | [] => (.ill, 0)
    else (.ill, 0)

/-- The pieces of a byte string in order. -/
def pieces : Bytes → List Piece
  | [] => []
  | b :: rest => (front b rest).1 :: pieces (rest.drop (front b rest).2)
termination_by bs => bs.length
decreasing_by simp only [List.length_drop, List.length_cons]; omega

/-- The character that stands for bytes that are part of no character. -/
def replacement : Char := '\uFFFD'

/-- A piece as a character. -/
def Piece.orReplacement : Piece → Char
  | .char c => c
  | .ill => replacement

/-- The characters of a byte string, each ill piece as a replacement character. -/
def decodeLossy (bs : Bytes) : List Char := (pieces bs).map Piece.orReplacement

/-- The character of a piece that is one. -/
def Piece.char? : Piece → Option Char
  | .char c => some c
  | .ill => none

/-- The characters of a byte string that is UTF-8 throughout. -/
def decode? (bs : Bytes) : Option (List Char) := (pieces bs).mapM Piece.char?

/-- The text of a byte string, each ill piece as a replacement character. -/
def toStringLossy (bs : Bytes) : String := String.ofList (decodeLossy bs)

end LogRelay.Utf8
