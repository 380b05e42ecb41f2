import LogRelay.Dictionary

/-!
# Events and batches

An `Event` is one line that was read, with where it came from.  A `Batch` is a row of events under a
sequence number; it travels as a whole.

* `Event.withField`: adds a named text to an event;
* `Batch.size`: the number of events.
-/

namespace LogRelay

/-- One line and where it came from. -/
structure Event where
  /-- The name of what the line was read from. -/
  source : String
  /-- The number of octets up to the end of this line, from which reading can be taken up again. -/
  offset : UInt64
  line : UInt64
  /-- When the line was read, in milliseconds since 1970. -/
  timestamp : Int64
  text : String
  fields : Dictionary String := ∅
deriving DecidableEq

namespace Event

/-- The event of a line that was read at `now`, in milliseconds since 1970; a clock beyond the range of a
timestamp counts as its end. -/
def read (now : Nat) (source : String) (offset line : UInt64) (text : String) : Event :=
  { source, offset, line, timestamp := Int64.ofNat (min now 0x7FFFFFFFFFFFFFFF), text }

/-- The event with a field set. -/
def withField (e : Event) (key value : String) : Event := { e with fields := e.fields.insert key value }

end Event

/-- Events that travel together. -/
structure Batch where
  sequence : Nat
  events : List Event
deriving DecidableEq

namespace Batch

/-- The number of events. -/
def size (b : Batch) : Nat := b.events.length

/-- Whether there are no events. -/
def isEmpty (b : Batch) : Bool := b.events.isEmpty

end Batch

end LogRelay
