import LogRelay.Journal
import LogRelay.Journal.Pattern
import LogRelay.Text.Decimal
import LogRelay.Text.Lowercase
import LogRelay.Text.Split
import LogRelay.Text.Utf8

/-!
# Filters

A filter says which records are shown.  It is a row of directives between commas:

    level
    origin
    origin=level
    origin[span{field}]=level
    origin[span{field=value}]=level

A directive is about the records whose origin begins with its own and that have all its fields, and lets
those through that have at least its level; of several directives about a record the most specific one
decides.  Directives that name a span, or the value of a field, say nothing about a record outside spans.

* `Directive.parse?`: the directive of a text;
* `Filter.parse?`: the filter of a text;
* `Filter.allows`: whether a record is shown.
-/

namespace LogRelay.Journal

/-- A rule about records. -/
structure Directive where
  /-- What the origin of a record begins with, if that matters. -/
  origin : Option String := none
  span : Option String := none
  /-- The fields that a record has to have, as they were given. -/
  fields : List String := []
  /-- The least severity that is let through; `none` lets nothing through. -/
  level : Option Severity := some .trace
deriving DecidableEq, Repr

/-- The level of a text: a name, or a number from 0 for nothing to 5 for everything. -/
def levelOf? (s : String) : Option (Option Severity) :=
  match Text.parseDecimal Text.maxWord s.toList with
  | .ok 0 => some none
  | .ok 1 => some (some .error)
  | .ok 2 => some (some .warn)
  | .ok 3 => some (some .info)
  | .ok 4 => some (some .debug)
  | .ok 5 => some (some .trace)
  | _ => if s = "off" then some none else (Severity.ofName? s).map some

namespace Directive

/-- What is being read, and the offset at which it began. -/
inductive Part where
  | nothing
  /-- A level or an origin. -/
  | word (start : Nat)
  | span (start : Nat)
  | field (start : Nat)
  | afterFields
  | afterSpan
  | level (start : Nat)
deriving DecidableEq, Repr

/-- The characters of a text with their offsets in octets. -/
def withOffsets : Nat → List Char → List (Nat × Char)
  | _, [] => []
  | n, c :: cs => (n, c) :: withOffsets (n + (Utf8.encodeChar c).length) cs

/-- The octets of `given` from one offset to another as a text. -/
def cut (given : Bytes) (start stop : Nat) : String :=
  Utf8.toStringLossy ((given.drop start).take (stop - start))

/-- Whether a text is a field: a name, or a name and a value, which is a number or a pattern.  What follows a
second equality sign does not matter. -/
def isField (field : String) : Bool :=
  match Text.splitAt '=' field.toList with
  | _ :: value :: _ => Text.isReal value || isPattern value
  | _ => !field.isEmpty

/-- Whether a level or an origin can begin with a character. -/
def beginsWord (c : Char) : Bool := c == '-' || c == ':' || c == '_' || Text.isAlphanumeric c

/-- Takes one more character; `none` if it cannot stand there. -/
def step (given : Bytes) : Directive × Part → Nat × Char → Option (Directive × Part)
  | (d, .nothing), (i, c) =>
    if c = '[' then some (d, .span (i + 1)) else if beginsWord c then some (d, .word i) else none
  | (d, .word start), (i, c) =>
    if c = '=' then some ({ d with origin := some (cut given start i) }, .level (i + 1))
    else if c = '[' then some ({ d with origin := some (cut given start i) }, .span (i + 1))
    else some (d, .word start)
  | (d, .span start), (i, c) =>
    let name := cut given start i
    if c = ']' then some ({ d with span := some name }, .afterSpan)
    else if c = '\x7b' then some ({ d with span := if name.isEmpty then none else some name }, .field (i + 1))
    else some (d, .span start)
  | (d, .field start), (i, c) =>
    if c = '\x7d' then
      let field := cut given start i
      if isField field then some ({ d with fields := d.fields ++ [field] }, .afterFields) else none
    else some (d, .field start)
  | (d, .afterFields), (_, c) => if c = ']' then some (d, .afterSpan) else none
  | (d, .afterSpan), (i, c) => if c = '=' then some (d, .level (i + 1)) else none
  | (d, .level start), _ => some (d, .level start)

/-- The directive of what was read; `none` if something is missing or there is no such level. -/
def finish (given : Bytes) : Directive × Part → Option Directive
  | (d, .word start) =>
    let word := cut given start given.length
    match levelOf? word with
    | some level => some { d with level, origin := none }
    | none => some { d with origin := some word }
  | (d, .level start) =>
    let name := cut given start given.length
    if name.isEmpty then some d else (levelOf? name).map fun level => { d with level }
  | (d, .afterSpan) => some d
  | _ => none

/-- The directive of a text.  Blanks around it are not looked at, but the pieces are cut out of the text as it is
given, at the offsets that they have without the blanks. -/
def parse? (cs : List Char) : Option Directive :=
  let given := Utf8.encode cs
  ((withOffsets 0 (Text.trimChars cs)).foldlM (step given) ({}, .nothing)).bind (finish given)

/-- Whether a directive says something about a record outside spans. -/
def isPlain (d : Directive) : Bool := d.span.isNone && d.fields.all fun f => !f.toList.contains '='

/-- Whether a directive is about a record of an origin. -/
def concerns (d : Directive) (origin : String) (r : Record) : Bool :=
  d.isPlain &&
  (match d.origin with
    | some front => front.toList.isPrefixOf origin.toList
    | none => true) &&
  d.fields.all fun f => f == "message" && r.message.isSome || r.fields.any fun g => g.name == f

/-- How specific a directive is: first by the length of its origin, then by the number of its fields. -/
def rank (d : Directive) : Nat × Nat :=
  ((d.origin.map fun s => (Utf8.ofString s).length + 1).getD 0, d.fields.length)

/-- Whether a directive is at least as specific as another. -/
def isAbove (d e : Directive) : Bool :=
  e.rank.1 < d.rank.1 || e.rank.1 == d.rank.1 && e.rank.2 ≤ d.rank.2

end Directive

/-- A row of directives. -/
structure Filter where
  /-- The directives in the order in which they were given. -/
  directives : List Directive
deriving DecidableEq, Repr

namespace Filter

/-- The filter that shows whatever has at least a level. -/
def ofLevel (s : Severity) : Filter := ⟨[{ level := some s }]⟩

/-- The filter of a text.  An empty text is a filter that shows nothing. -/
def parse? (s : String) : Option Filter :=
  (((Text.splitAt ',' s.toList).filter fun piece => !piece.isEmpty).mapM Directive.parse?).map Filter.mk

/-- The filter of a setting: its text in lower case, or the default where that is no filter. -/
def ofSetting (given : Option String) : Filter :=
  match given with
  | none => ofLevel .info
  | some s => (parse? (Text.lowercase s)).getD (ofLevel .info)

/-- The most specific directive about a record; of two alike the later one. -/
def deciding? (f : Filter) (origin : String) (r : Record) : Option Directive :=
  (f.directives.filter fun d => d.concerns origin r).foldl
    (fun best d => match best with
      | some e => if d.isAbove e then some d else best
      | none => some d) none

/-- Whether a record of an origin is shown. -/
def allows (f : Filter) (origin : String) (r : Record) : Bool :=
  match f.deciding? origin r with
  | some d =>
    match d.level with
    | some low => r.severity.atLeast low
    | none => false
  | none => false

end Filter

end LogRelay.Journal
