import LogRelay.Duration
import LogRelay.Event
import LogRelay.Journal
import LogRelay.Queue

/-!
# Batching events

A `Batcher` spools events and hands them on in numbered batches.  It flushes when the spool is full, when
the idle time has passed since the last flush and there is something in the spool, and when no more events
will come.  While a batch waits for room in the queue, no events are taken in.

* `Batcher.start`: a batcher that was just started;
* `Batcher.want`: what it wants;
* `Batcher.answer`: how it goes on.
-/

namespace LogRelay

/-- What a batcher is told. -/
structure BatcherSettings where
  /-- The number of events at which a batch is full. -/
  size : Nat := 1024
  /-- How long events may wait for a full batch. -/
  idle : Duration := .ofMillis 5000
deriving DecidableEq

/-- What a batcher says about itself. -/
inductive BatcherNotice where
  | started
  /-- It was called off with so many events in the spool. -/
  | unflushed (n : Nat)
  | inputClosed
  /-- An event came when the idle time had passed already. -/
  | overdue
  /-- The idle time has passed with so many events in the spool. -/
  | due (n : Nat)
  | flushing (sequence n : Nat)
  /-- It was called off while a batch waited for room. -/
  | cancelledWaiting
  /-- Nobody takes batches any more, and so many events are lost. -/
  | dropping (n : Nat)
  | stopped
deriving DecidableEq, Repr

def BatcherNotice.record : BatcherNotice → Journal.Record
  | started => Journal.say .debug "Spooler started"
  | unflushed n => Journal.say .warn s!"Spooler cancelled with {n} unflushed events"
  | inputClosed => Journal.say .debug "Spooler input closed"
  | overdue => Journal.say .debug "Idle flush time already passed, flushing on arrival"
  | due n => Journal.say .debug s!"Idle flush time reached with {n} events spooled"
  | flushing sequence n => Journal.say .debug s!"Flushing batch {sequence} with {n} events"
  | cancelledWaiting => Journal.say .warn "Spooler cancelled while waiting for the publisher"
  | dropping n => Journal.say .error s!"Publisher queue closed, dropping {n} events"
  | stopped => Journal.say .debug "Spooler stopped"

/-- What follows when a batch has been handed on. -/
inductive AfterFlush where
  | resume
  | stop
deriving DecidableEq, Repr

/-- Where a batcher stands. -/
inductive BatcherStage where
  | collecting
  | flushing (b : Batch) (next : AfterFlush)
  | finished
deriving DecidableEq

/-- What a batcher wants of its surroundings. -/
inductive BatcherWant where
  /-- An event, at the latest until the given time, unless all is called off. -/
  | event (deadline : Option Instant)
  /-- Room for a batch, unless all is called off. -/
  | room (b : Batch)
  | nothing
deriving DecidableEq

/-- What the surroundings answer a batcher. -/
inductive BatcherAnswer where
  | event (e : Event)
  | inputClosed
  | due
  | cancelled
  | handed (h : Handing)
deriving DecidableEq

/-- A batcher at work. -/
structure Batcher where
  size : Nat
  idle : Duration
  /-- The events that wait, the oldest first. -/
  spool : List Event
  next : Nat
  /-- When waiting events are flushed; it moves only when a batch has been handed on. -/
  deadline : Instant
  stage : BatcherStage
deriving DecidableEq

namespace Batcher

/-- The number of octets that an event in the spool takes. -/
def eventSize : Nat := 96

/-- Whether a spool for so many events can be addressed; a batcher that cannot have its spool dies. -/
def canHold (size : Nat) : Bool := size * eventSize ≤ 0x7FFFFFFFFFFFFFFF

/-- A batcher that is started at `now`; a batch has at least one event. -/
def start (s : BatcherSettings) (now : Instant) : Batcher where
  size := max s.size 1
  idle := s.idle
  spool := []
  next := 0
  deadline := now + s.idle.nanos
  stage := .collecting

/-- Whether a batcher has ended. -/
def isFinished (b : Batcher) : Bool :=
  match b.stage with
  | .finished => true
  | _ => false

def want (b : Batcher) : BatcherWant :=
  match b.stage with
  | .collecting => .event (if b.spool.isEmpty then none else some b.deadline)
  | .flushing batch _ => .room batch
  | .finished => .nothing

/-- What a batcher says on the way to its next state, and that state. -/
abbrev Reaction := List BatcherNotice × Batcher

/-- The end. -/
def finish (b : Batcher) (notices : List BatcherNotice) : Reaction :=
  (notices ++ [.stopped], { b with stage := .finished })

/-- All that waits becomes a batch. -/
def flush (b : Batcher) (notices : List BatcherNotice) (after : AfterFlush) : Reaction :=
  (notices ++ [.flushing b.next b.spool.length],
    { b with spool := [], next := b.next + 1, stage := .flushing ⟨b.next, b.spool⟩ after })

/-- An event has come. -/
def takeIn (b : Batcher) (now : Instant) (e : Event) : Reaction :=
  let b := { b with spool := b.spool ++ [e] }
  let overdue : Bool := b.deadline ≤ now
  if b.size ≤ b.spool.length ∨ overdue then
    b.flush (if overdue then [.overdue] else []) .resume
  else ([], b)

def answerHanding (b : Batcher) (now : Instant) (batch : Batch) (after : AfterFlush) :
    Handing → Reaction
  | .accepted =>
    match after with
    | .resume => ([], { b with deadline := now + b.idle.nanos, stage := .collecting })
    | .stop => b.finish []
  | .closed => b.finish [.dropping batch.size]
  | .cancelled => b.finish [.cancelledWaiting]

/-- How a batcher goes on when it is answered at `now`.  An answer that was not wanted changes nothing. -/
def answer (b : Batcher) (now : Instant) (a : BatcherAnswer) : Reaction :=
  match b.stage, a with
  | .collecting, .event e => b.takeIn now e
  | .collecting, .inputClosed =>
    if b.spool.isEmpty then b.finish [.inputClosed] else b.flush [.inputClosed] .stop
  | .collecting, .due => b.flush [.due b.spool.length] .resume
  | .collecting, .cancelled => b.finish (if b.spool.isEmpty then [] else [.unflushed b.spool.length])
  | .flushing batch after, .handed h => b.answerHanding now batch after h
  | _, _ => ([], b)

end Batcher

end LogRelay
