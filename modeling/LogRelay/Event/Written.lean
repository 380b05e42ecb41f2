import LogRelay.Event
import LogRelay.Json.Quoted

/-!
# Events in writing

Events are written as a JSON list of objects without any space.  The members of an object stand in a fixed
order, and the last one, `fields`, is left out when it would be empty.

* `Event.write`: an event as an object;
* `Event.writeAll`: events as a list.
-/

namespace LogRelay.Json

/-- A member of the object of an event. -/
inductive Member where
  | source
  | offset
  | line
  | timestamp
  | text
  | fields
deriving DecidableEq, Repr

namespace Member

/-- The key of a member. -/
def name : Member → String
  | source => "source"
  | offset => "offset"
  | line => "line"
  | timestamp => "timestamp"
  | text => "text"
  | fields => "fields"

/-- All members in the order in which they are written. -/
def all : List Member := [source, offset, line, timestamp, text, fields]

/-- The member with a key. -/
def ofName? (s : String) : Option Member := all.find? fun m => m.name == s

theorem ofName?_name (m : Member) : ofName? m.name = some m := by
  cases m <;> decide

end Member

/-- The octets of ASCII digits. -/
def digitOctets (cs : List Char) : Bytes := cs.map fun c => UInt8.ofNat c.toNat

/-- A whole number that is not negative. -/
def writeNatural (n : Nat) : Bytes := digitOctets (Nat.toDigits 10 n)

/-- A whole number. -/
def writeInteger (i : Int) : Bytes := if i < 0 then 45 :: writeNatural i.natAbs else writeNatural i.natAbs

/-- Pieces with commas between them. -/
def commaSeparated : List Bytes → Bytes
  | [] => []
  | [piece] => piece
  | piece :: pieces => piece ++ 44 :: commaSeparated pieces

def writeMember (key : String) (value : Bytes) : Bytes := Quoted.write key ++ 58 :: value

/-- Members between braces. -/
def writeObject (members : List (String × Bytes)) : Bytes :=
  123 :: commaSeparated (members.map fun p => writeMember p.1 p.2) ++ [125]

/-- Items between brackets. -/
def writeList (items : List Bytes) : Bytes := 91 :: commaSeparated items ++ [93]

/-- Texts under their keys. -/
def writeFields (m : Dictionary String) : Bytes :=
  writeObject (m.entries.map fun p => (p.1, Quoted.write p.2))

end LogRelay.Json

namespace LogRelay.Event

open Json

def members (e : Event) : List (String × Bytes) :=
  [(Member.source.name, Quoted.write e.source), (Member.offset.name, writeNatural e.offset.toNat),
    (Member.line.name, writeNatural e.line.toNat), (Member.timestamp.name, writeInteger e.timestamp.toInt),
    (Member.text.name, Quoted.write e.text)] ++
  if e.fields.isEmpty then [] else [(Member.fields.name, writeFields e.fields)]

/-- An event in writing. -/
def write (e : Event) : Bytes := writeObject e.members

/-- Events in writing. -/
def writeAll (es : List Event) : Bytes := writeList (es.map write)

end LogRelay.Event
