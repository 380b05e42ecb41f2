import LogRelay.Batcher
import LogRelay.Courier.Basic
import LogRelay.Ledger
import LogRelay.Queue

/-!
# Stages at their queues

What a stage is answered when it wants something of a queue.  A stage that all was called off for is
answered so before anything else; then come the queues, then the clock.  `none` means that it has to wait.
-/

namespace LogRelay

/-- What comes of waiting for an item, if anything has come. -/
def Queue.take? {α : Type} (called : Bool) (q : Queue α) : Option (Taking α × Queue α) :=
  if called then some (.cancelled, q)
  else
    match q.receive with
    | .item a q => some (.item a, q)
    | .finished => some (.closed, q)
    | .empty => none

/-- What comes of handing something on, if anything has come. -/
def Queue.hand? {α : Type} (called : Bool) (q : Queue α) (a : α) : Option (Handing × Queue α) :=
  if called then some (.cancelled, q)
  else
    match q.send a with
    | .accepted q => some (.accepted, q)
    | .closed => some (.closed, q)
    | .full => none

/-- What a batcher is answered, with the queues after that. -/
def Batcher.poll? (called : Bool) (now : Instant) (input : Queue Event) (output : Queue Batch)
    (b : Batcher) : Option (BatcherAnswer × Queue Event × Queue Batch) :=
  match b.want with
  | .event deadline =>
    match input.take? called with
    | some (.cancelled, input) => some (.cancelled, input, output)
    | some (.item e, input) => some (.event e, input, output)
    | some (.closed, input) => some (.inputClosed, input, output)
    | none =>
      match deadline with
      | some t => if t ≤ now then some (.due, input, output) else none
      | none => none
  | .room batch => (output.hand? called batch).map fun (h, output) => (.handed h, input, output)
  | .nothing => none

/-- What a courier is answered by its queues, with the queues after that. -/
def Courier.poll? (called : Bool) (input output : Queue Batch) (c : Courier) :
    Option (CourierAnswer × Queue Batch × Queue Batch) :=
  match c.want with
  | .batch => (input.take? called).map fun (t, input) => (.took t, input, output)
  | .probe => some (.probed output.isClosed, input, output)
  | .room b => (output.hand? called b).map fun (h, output) => (.handed h, input, output)
  | .nonce | .link _ | .nothing => none

/-- What a ledger is answered, with the queue after that. -/
def Ledger.poll? (called : Bool) (input : Queue Batch) (l : Ledger) :
    Option (Taking Batch × Queue Batch) :=
  if l.finished then none else input.take? called

end LogRelay
