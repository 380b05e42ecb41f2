import LogRelay.Text.Hexadecimal
import LogRelay.Text.Printable

/-!
# Quoted text

`quote` writes a text between double quotes so that it shows on one line: quotes and backslashes are
escaped, the common control characters have short forms, and every other character that does not show as
itself is written as its code point in lower-case hexadecimal.
-/

namespace LogRelay.Text

/-- A code point as an escape with braces. -/
def codePointEscape (c : Char) : List Char :=
  ['\\', 'u', '\x7b'] ++ hexDigits c.toNat ++ ['\x7d']

/-- A character as it stands in a quoted text. -/
def quoteChar (c : Char) : List Char :=
  if c = '"' then ['\\', '"']
  else if c = '\\' then ['\\', '\\']
  else if c = '\n' then ['\\', 'n']
  else if c = '\r' then ['\\', 'r']
  else if c = '\t' then ['\\', 't']
  else if c = '\x00' then ['\\', '0']
  else if isPrintable c then [c]
  else codePointEscape c

/-- The text between double quotes, with its special characters escaped. -/
def quote (s : String) : String :=
  String.ofList ('"' :: s.toList.flatMap quoteChar ++ ['"'])

end LogRelay.Text
