import LogRelay.Text.Quoted

/-!
# The journal

What the program says about itself is a list of `Record`s.  A record becomes one line:

    LUMBERJACK | LEVEL | span{a=1 b=2}: span: message field=value

with the enclosing spans from the outermost inwards.  The fixed first word tells the program's own lines
from the logs that it carries when both go to one stream.

* `Severity`: how much a record matters; `Severity.atLeast` is the order;
* `Journal.line`: the line of a record inside its spans;
* `Journal.lines`: the lines of the records that a threshold lets through.
-/

namespace LogRelay

/-- How much a record matters. -/
inductive Severity where
  | trace
  | debug
  | info
  | warn
  | error
deriving DecidableEq, Repr

namespace Severity

/-- The place of a severity in the order. -/
def rank : Severity → Nat
  | trace => 0
  | debug => 1
  | info => 2
  | warn => 3
  | error => 4

/-- Whether `s` is no lower than `threshold`. -/
def atLeast (s threshold : Severity) : Bool := threshold.rank ≤ s.rank

/-- The name of a severity as a setting. -/
def name : Severity → String
  | trace => "trace"
  | debug => "debug"
  | info => "info"
  | warn => "warn"
  | error => "error"

/-- The name of a severity in a line. -/
def heading : Severity → String
  | trace => "TRACE"
  | debug => "DEBUG"
  | info => "INFO"
  | warn => "WARN"
  | error => "ERROR"

/-- All severities, lowest first. -/
def all : List Severity := [trace, debug, info, warn, error]

def ofName? (s : String) : Option Severity := all.find? fun v => v.name == s

end Severity

namespace Journal

/-- The value of a field. -/
inductive Value where
  | number (n : Int)
  /-- A text that is written between quotes. -/
  | quoted (s : String)
  /-- A text that is written as it is. -/
  | plain (s : String)
  | flag (b : Bool)
deriving DecidableEq, Repr

def Value.text : Value → String
  | number n => toString n
  | quoted s => Text.quote s
  | plain s => s
  | flag b => if b then "true" else "false"

/-- A named value. -/
structure Field where
  name : String
  value : Value
deriving DecidableEq, Repr

/-- A field as it stands in a line. -/
def Field.text (f : Field) : String := s!"{f.name}={f.value.text}"

/-- A stretch of work that records are made in. -/
structure Span where
  name : String
  fields : List Field := []
  severity : Severity := .info
deriving DecidableEq, Repr

/-- One thing said. -/
structure Record where
  severity : Severity
  message : Option String
  fields : List Field := []
deriving DecidableEq, Repr

/-- Says `message` and nothing else. -/
def say (severity : Severity) (message : String) : Record := ⟨severity, some message, []⟩

/-- Two lower-case hexadecimal digits. -/
def hexPair (n : Nat) : List Char := [Text.hexDigit (n / 16), Text.hexDigit (n % 16)]

/-- A character of a message: those that could act on a terminal are escaped. -/
def plainChar (c : Char) : List Char :=
  let n := c.toNat
  if n = 0x1B ∨ n = 0x07 ∨ n = 0x08 ∨ n = 0x0C ∨ n = 0x7F then ['\\', 'x'] ++ hexPair n
  else if 0x80 ≤ n ∧ n ≤ 0x9F then ['\\', 'u', '\x7b'] ++ hexPair n ++ ['\x7d']
  else [c]

/-- A message as it stands in a line. -/
def messageText (s : String) : String := String.ofList (s.toList.flatMap plainChar)

/-- A span as it stands in a line. -/
def Span.text (s : Span) : String :=
  match s.fields with
  | [] => s.name ++ ": "
  | fields => s.name ++ "\x7b" ++ " ".intercalate (fields.map Field.text) ++ "\x7d: "

/-- The line of a record that was made inside `spans`, outermost first. -/
def line (spans : List Span) (r : Record) : String :=
  let details := (r.message.map messageText).toList ++ r.fields.map Field.text
  "LUMBERJACK | " ++ r.severity.heading ++ " | " ++ String.join (spans.map Span.text) ++
    " ".intercalate details

/-- The lines that a threshold lets through; without a threshold there are none. -/
def lines (threshold : Option Severity) (spans : List Span) (records : List Record) : List String :=
  match threshold with
  | none => []
  | some low =>
    (records.filter fun r => r.severity.atLeast low).map
      (line (spans.filter fun s => s.severity.atLeast low))

end Journal

end LogRelay
