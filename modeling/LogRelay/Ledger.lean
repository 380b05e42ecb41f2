import LogRelay.Event
import LogRelay.Journal
import LogRelay.Queue

/-!
# The ledger

A `Ledger` keeps, for each source, how far its events have been acknowledged.

* `Positions.record`: the positions after one more event;
* `Positions.recordBatch`: the positions after one more batch;
* `Ledger.answer`: how a ledger goes on.
-/

namespace LogRelay

/-- How far a source has been acknowledged. -/
structure Position where
  /-- The greatest offset. -/
  offset : UInt64 := 0
  /-- The line of the last event with that offset. -/
  line : UInt64 := 0
  events : Nat := 0
deriving DecidableEq, Repr

/-- The position after one more event of its source. -/
def Position.add (p : Position) (e : Event) : Position :=
  if p.offset ≤ e.offset then ⟨e.offset, e.line, p.events + 1⟩ else { p with events := p.events + 1 }

/-- How far each source has been acknowledged. -/
abbrev Positions := Dictionary Position

namespace Positions

/-- The positions after one more event. -/
def record (m : Positions) (e : Event) : Positions :=
  m.upsert e.source fun p => (p.getD {}).add e

/-- The positions after one more batch. -/
def recordBatch (m : Positions) (b : Batch) : Positions := b.events.foldl record m

end Positions

/-- What a ledger says about itself. -/
inductive LedgerNotice where
  | registered (sequence n : Nat)
  | stopped
deriving DecidableEq, Repr

def LedgerNotice.record : LedgerNotice → Journal.Record
  | registered sequence n => Journal.say .debug s!"Registered batch {sequence} ({n} events)"
  | stopped => Journal.say .debug "Registrar stopped"

/-- A ledger at work. -/
structure Ledger where
  /-- How far each source has been acknowledged. -/
  positions : Positions := ∅
  finished : Bool := false
deriving DecidableEq

namespace Ledger

/-- How a ledger goes on when it is given a batch or told that there will be none. -/
def answer (l : Ledger) (a : Taking Batch) : List LedgerNotice × Ledger :=
  match l.finished, a with
  | false, .item b =>
    ([.registered b.sequence b.size], { l with positions := l.positions.recordBatch b })
  | false, .closed | false, .cancelled => ([.stopped], { l with finished := true })
  | true, _ => ([], l)

end Ledger

end LogRelay
