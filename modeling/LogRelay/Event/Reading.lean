import LogRelay.Event.Written
import LogRelay.Json.Doc
import LogRelay.Text.Quoted
import LogRelay.Text.Shortest

/-!
# Reading events

`Event.readAll` makes events of a JSON document.  An event is an object with the members of
`Json.Member` in any order, of which only `fields` may be missing; members with other keys are skipped.  It
may also be a list of the members' values in their fixed order.  The document is walked from left to right
and the first thing wrong is reported: text that is no JSON, or a value that does not fit its place.

* `ReadFault`: what can be wrong, and its wording;
* `Event.ofDoc`: the event of a value;
* `Event.readAll`: the events of a byte string.
-/

namespace LogRelay

namespace Json

/-- What stands at a place, as a message names it. -/
inductive Found where
  | null
  | flag (b : Bool)
  | number (n : Numeral)
  | string (s : String)
  | list
  | object
deriving Repr

/-- What has to stand at a place, as a message names it. -/
inductive Expected where
  | list
  | event
  | natural
  | integer
  | string
  | object
deriving DecidableEq, Repr

/-- How a value does not fit. -/
inductive Misfit where
  | kind (found : Found) (expected : Expected)
  | range (n : Int) (expected : Expected)
  /-- A list of values that is too short for an event. -/
  | length (n : Nat)
  | missing (m : Member)
  | duplicate (m : Member)
deriving Repr

/-- Why no events were read. -/
inductive ReadFault where
  | text (f : Fault)
  /-- The text is JSON up to a value that does not fit. -/
  | misfit (m : Misfit)
deriving Repr

/-- What a value is, in words. -/
def Found.message : Found → String
  | null => "null"
  | flag b => "boolean `" ++ (if b then "true" else "false") ++ "`"
  | number (.natural n) => "integer `" ++ toString n.toNat ++ "`"
  | number (.negative n) => "integer `" ++ toString n.toInt ++ "`"
  | number (.real x) => "floating point `" ++ Text.realText x ++ "`"
  | string s => "string " ++ Text.quote s
  | list => "sequence"
  | object => "map"

/-- What is expected, in words. -/
def Expected.message : Expected → String
  | list => "a sequence"
  | event => "struct FileEvent"
  | natural => "u64"
  | integer => "i64"
  | string => "a string"
  | object => "a map"

/-- The wording of a misfit. -/
def Misfit.message : Misfit → String
  | kind found expected => "invalid type: " ++ found.message ++ ", expected " ++ expected.message
  | range n expected => "invalid value: integer `" ++ toString n ++ "`, expected " ++ expected.message
  | length n => s!"invalid length {n}, expected struct FileEvent with 6 elements"
  | missing m => "missing field `" ++ m.name ++ "`"
  | duplicate m => "duplicate field `" ++ m.name ++ "`"

/-- The wording of a fault. -/
def Fault.message : Fault → String
  | malformed => "the text is not JSON"
  | ended => "the text ends inside a value"

/-- The wording of a fault. -/
def ReadFault.message : ReadFault → String
  | text f => f.message
  | misfit m => m.message

namespace Doc

/-- The fault of a value that stands where something else is expected.  A number or string has to be
complete and sound before it can be named; a list or an object is known by its first token. -/
def unexpected (expected : Expected) : Doc → ReadFault
  | .null => .misfit (.kind .null expected)
  | .flag b => .misfit (.kind (.flag b) expected)
  | .number (some n) => .misfit (.kind (.number n) expected)
  | .string (some s) => .misfit (.kind (.string s) expected)
  | .list _ _ => .misfit (.kind .list expected)
  | .object _ _ => .misfit (.kind .object expected)
  | .number none | .string none => .text .malformed
  | .broken c => .text c.read

/-- What follows the items or members that were read. -/
def ending : Option Cut → Except ReadFault Unit
  | none => .ok ()
  | some c => .error (.text c.read)

/-- A word without a sign. -/
def toNatural : Doc → Except ReadFault UInt64
  | .number (some (.natural n)) => .ok n
  | .number (some (.negative n)) => .error (.misfit (.range n.toInt .natural))
  | d => .error (d.unexpected .natural)

/-- A word with a sign. -/
def toInteger : Doc → Except ReadFault Int64
  | .number (some (.natural n)) =>
    if n.toNat < 0x8000000000000000 then .ok (Int64.ofNat n.toNat)
    else .error (.misfit (.range n.toNat .integer))
  | .number (some (.negative n)) => .ok n
  | d => .error (d.unexpected .integer)

def toText : Doc → Except ReadFault String
  | .string (some s) => .ok s
  | d => .error (d.unexpected .string)

/-- The key of a member. -/
def keyText : Option String → Except ReadFault String
  | some s => .ok s
  | none => .error (.text .malformed)

/-- Texts under keys, onto those before them; of two with one key the later counts. -/
def addTexts (m : Dictionary String) :
    List (Option String × Doc) → Except ReadFault (Dictionary String)
  | [] => .ok m
  | (key, d) :: rest => do
    let key ← keyText key
    let s ← d.toText
    addTexts (m.insert key s) rest

/-- Texts under keys. -/
def toTexts : Doc → Except ReadFault (Dictionary String)
  | .object members cut => do
    let m ← addTexts ∅ members
    ending cut
    return m
  | d => .error (d.unexpected .object)

/-- Passes over a value. -/
def skip (d : Doc) : Except ReadFault Unit :=
  match d.skipFault? with
  | some f => .error (.text f)
  | none => .ok ()

end Doc

end Json

namespace Event

open Json

/-- The members of an event that were read so far. -/
structure Draft where
  source : Option String := none
  offset : Option UInt64 := none
  line : Option UInt64 := none
  timestamp : Option Int64 := none
  text : Option String := none
  fields : Option (Dictionary String) := none
deriving DecidableEq

namespace Draft

/-- Whether a member was read. -/
def has (d : Draft) : Member → Bool
  | .source => d.source.isSome
  | .offset => d.offset.isSome
  | .line => d.line.isSome
  | .timestamp => d.timestamp.isSome
  | .text => d.text.isSome
  | .fields => d.fields.isSome

/-- Reads a member, which must not have been read before. -/
def add (d : Draft) (m : Member) (v : Doc) : Except ReadFault Draft :=
  if d.has m then .error (.misfit (.duplicate m))
  else
    match m with
    | .source => v.toText.map fun x => { d with source := some x }
    | .offset => v.toNatural.map fun x => { d with offset := some x }
    | .line => v.toNatural.map fun x => { d with line := some x }
    | .timestamp => v.toInteger.map fun x => { d with timestamp := some x }
    | .text => v.toText.map fun x => { d with text := some x }
    | .fields => v.toTexts.map fun x => { d with fields := some x }

/-- Reads a member if its key is known, and passes over it otherwise. -/
def addMember (d : Draft) (key : Option String) (v : Doc) : Except ReadFault Draft := do
  let key ← Doc.keyText key
  match Member.ofName? key with
  | some m => d.add m v
  | none => do
    v.skip
    return d

/-- Reads members one after the other. -/
def addMembers : Draft → List (Option String × Doc) → Except ReadFault Draft
  | d, [] => .ok d
  | d, (key, v) :: rest => do addMembers (← d.addMember key v) rest

def need {α : Type} (m : Member) : Option α → Except ReadFault α
  | some x => .ok x
  | none => .error (.misfit (.missing m))

/-- The event of a draft, if it has every member that is needed. -/
def toEvent (d : Draft) : Except ReadFault Event := do
  let source ← need .source d.source
  let offset ← need .offset d.offset
  let line ← need .line d.line
  let timestamp ← need .timestamp d.timestamp
  let text ← need .text d.text
  return { source, offset, line, timestamp, text, fields := d.fields.getD ∅ }

end Draft

/-- The value at a place of a list, which has to be there. -/
def itemAt (items : List Doc) (cut : Option Cut) (i : Nat) : Except ReadFault Doc :=
  match items[i]? with
  | some d => .ok d
  | none => do
    Doc.ending cut
    .error (.misfit (.length i))

/-- The event whose members' values are the items of a list. -/
def ofItems (items : List Doc) (cut : Option Cut) : Except ReadFault Event := do
  let source ← (← itemAt items cut 0).toText
  let offset ← (← itemAt items cut 1).toNatural
  let line ← (← itemAt items cut 2).toNatural
  let timestamp ← (← itemAt items cut 3).toInteger
  let text ← (← itemAt items cut 4).toText
  let fields ← match items[5]? with
    | some d => d.toTexts
    | none => .ok ∅
  if 6 < items.length then .error (.text .malformed)
  else do
    Doc.ending cut
    return { source, offset, line, timestamp, text, fields }

/-- The event of a value. -/
def ofDoc : Doc → Except ReadFault Event
  | .object members cut => do
    let d ← Draft.addMembers {} members
    Doc.ending cut
    d.toEvent
  | .list items cut => ofItems items cut
  | d => .error (d.unexpected .event)

/-- The events of a document. -/
def allOfDoc : Doc → Except ReadFault (List Event)
  | .list items cut => do
    let es ← items.mapM ofDoc
    Doc.ending cut
    return es
  | d => .error (d.unexpected .list)

/-- The events of a byte string. -/
def readAll (bs : Bytes) : Except ReadFault (List Event) := do
  let r := Json.read bs
  let es ← allOfDoc r.doc
  if r.surplus then .error (.text .malformed) else return es

end Event

end LogRelay
