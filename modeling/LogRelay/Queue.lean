/-!
# Queues

A `Queue` is bounded and has any number of senders and one receiver.  What was sent stays in it when the
senders are gone, and is lost when the receiver is.

* `Queue.send`, `Queue.receive`: what comes of trying;
* `Queue.isClosed`: whether sending is pointless.
-/

namespace LogRelay

/-- A bounded queue. -/
structure Queue (α : Type) where
  capacity : Nat
  /-- What it holds, the oldest first. -/
  items : List α := []
  senders : Nat := 1
  receiving : Bool := true
deriving DecidableEq

/-- What comes of trying to send. -/
inductive Sending (α : Type) where
  | accepted (q : Queue α)
  | full
  | closed

/-- What comes of trying to receive. -/
inductive Receiving (α : Type) where
  | item (a : α) (q : Queue α)
  | empty
  /-- There is nothing, and no sender is left. -/
  | finished

/-- What comes of waiting for an item. -/
inductive Taking (α : Type) where
  | item (a : α)
  | closed
  | cancelled
deriving DecidableEq

/-- What comes of handing something on. -/
inductive Handing where
  | accepted
  | closed
  | cancelled
deriving DecidableEq, Repr

namespace Queue

variable {α : Type}

/-- Whether sending is pointless. -/
def isClosed (q : Queue α) : Bool := !q.receiving

/-- Tries to send. -/
def send (q : Queue α) (a : α) : Sending α :=
  if q.isClosed then .closed
  else if q.items.length < q.capacity then .accepted { q with items := q.items ++ [a] }
  else .full

/-- Tries to receive. -/
def receive (q : Queue α) : Receiving α :=
  match q.items with
  | a :: rest => .item a { q with items := rest }
  | [] => if q.senders = 0 then .finished else .empty

/-- A sender is gone. -/
def dropSender (q : Queue α) : Queue α := { q with senders := q.senders - 1 }

/-- One more sender. -/
def addSender (q : Queue α) : Queue α := { q with senders := q.senders + 1 }

/-- The receiver is gone, and with it what it had not yet received. -/
def dropReceiver (q : Queue α) : Queue α := { q with receiving := false, items := [] }

end Queue

end LogRelay
