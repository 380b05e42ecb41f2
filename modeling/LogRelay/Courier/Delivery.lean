import LogRelay.Courier.Prepared
import LogRelay.Link.Operation

/-!
# Delivering a batch

A delivery repeats an exchange until it succeeds: the nonce goes out as the first frame of a message, the
ciphertext as its last, and one reply comes in, whose content does not matter.

* `Delivery.start`: a delivery on a link;
* `Delivery.answer`: how it goes on.
-/

namespace LogRelay

/-- What a courier says about itself. -/
inductive CourierNotice where
  | link (n : LinkNotice)
  | prepared (sequence n payload sealed : Nat)
  /-- A delivery has come further, or fallen back. -/
  | moved (sequence : Nat) (old new : DeliveryState)
  | delivered (sequence n : Nat) (attempts : UInt32)
  | acknowledged (size : Nat)
  | deliveryCancelled (sequence : Nat) (attempts : UInt32)
  | retrying (sequence : Nat) (attempts : UInt32) (cause : LinkFault)
  /-- A batch has nothing to deliver. -/
  | empty (sequence : Nat)
  | started
  | queueClosed
  | stopping (cause : PublishFault)
  | stopped
  /-- Nobody records a delivered batch. -/
  | unrecorded (sequence : Nat)
deriving Repr

def CourierNotice.record : CourierNotice → Journal.Record
  | link n => n.record
  | prepared sequence n payload sealed =>
    Journal.say .trace
      s!"Batch {sequence}: {n} events, {payload} compressed bytes, {sealed} sealed bytes"
  | moved sequence old new =>
    Journal.say .trace ("Batch " ++ toString sequence ++ ": " ++ old.name ++ " -> " ++ new.name)
  | delivered sequence n attempts =>
    Journal.say .info s!"Delivered batch {sequence} ({n} events) after {attempts.toNat} attempts"
  | acknowledged size => Journal.say .trace s!"Acknowledgement was {size} bytes"
  | deliveryCancelled sequence attempts =>
    Journal.say .debug s!"Delivery of batch {sequence} cancelled after {attempts.toNat} attempts"
  | retrying sequence attempts cause =>
    Journal.say .warn s!"Batch {sequence} attempt {attempts.toNat} failed, retrying: {cause.message}"
  | empty sequence => Journal.say .debug s!"Batch {sequence} is empty, nothing to send"
  | started => Journal.say .debug "Publisher started"
  | queueClosed => Journal.say .debug "Batch queue closed"
  | stopping cause => Journal.say .error ("Stopping publisher: " ++ cause.message)
  | stopped => Journal.say .debug "Publisher stopped"
  | unrecorded sequence => Journal.say .debug s!"Registrar gone, not recording batch {sequence}"

/-- What of an exchange is under way. -/
inductive Leg where
  | nonce
  | ciphertext
  | reply
deriving DecidableEq, Repr

/-- A delivery under way. -/
structure Delivery where
  prepared : PreparedBatch
  /-- The operation on the link that is under way, or was the last. -/
  operation : Operation
  leg : Leg
  result : Option (Except PublishFault Unit)

namespace PreparedBatch

/-- The batch with its delivery further on, and the notice of that. -/
def moveTo (p : PreparedBatch) (state : DeliveryState) : List CourierNotice × PreparedBatch :=
  ([.moved p.batch.sequence p.state state], { p with state })

/-- The notice that a batch has its wire form. -/
def notice (p : PreparedBatch) : CourierNotice :=
  .prepared p.batch.sequence p.batch.size (p.ciphertext.length - tagSize) p.ciphertext.length

end PreparedBatch

namespace Delivery

/-- What an operation on the link is to do for a leg of the exchange. -/
def goal (p : PreparedBatch) : Leg → Goal
  | .nonce => .send p.nonce true
  | .ciphertext => .send p.ciphertext false
  | .reply => .receive

/-- A leg of the exchange begins. -/
def beginLeg (l : Link) (p : PreparedBatch) (leg : Leg) : Turn Delivery CourierNotice :=
  let t := Operation.start l (goal p leg)
  ⟨t.notices.map .link, ⟨p, t.next, leg, none⟩⟩

/-- An exchange begins. -/
def start (l : Link) (p : PreparedBatch) : Turn Delivery CourierNotice :=
  let (notices, p) := { p with attempts := p.attempts + 1 }.moveTo .sending
  let t := beginLeg l p .nonce
  ⟨notices ++ t.notices, t.next⟩

/-- The delivery has ended. -/
def finish (d : Delivery) (notices : List CourierNotice) (r : Except PublishFault Unit) :
    Turn Delivery CourierNotice :=
  ⟨notices, { d with result := some r }⟩

/-- The reply has come. -/
def succeed (d : Delivery) (reply : Bytes) : Turn Delivery CourierNotice :=
  let (notices, p) := d.prepared.moveTo .delivered
  finish { d with prepared := p }
    (notices ++ [.delivered p.batch.sequence p.batch.size p.attempts, .acknowledged reply.length])
    (.ok ())

/-- How a delivery goes on when its operation has come to a result. -/
def proceed (d : Delivery) (r : LinkResult) : Turn Delivery CourierNotice :=
  let p := d.prepared
  match r, d.leg with
  | .ok _, .nonce => beginLeg d.operation.link p .ciphertext
  | .ok _, .ciphertext =>
    let (notices, p) := p.moveTo .awaitingAck
    let t := beginLeg d.operation.link p .reply
    ⟨notices ++ t.notices, t.next⟩
  | .ok reply, .reply => d.succeed reply
  | .error .cancelled, _ =>
    d.finish [.deliveryCancelled p.batch.sequence p.attempts] (.error .cancelled)
  | .error (.socket cause), _ => d.finish [] (.error (.link (.socket cause)))
  | .error cause, _ =>
    let t := start d.operation.link p
    ⟨.retrying p.batch.sequence p.attempts cause :: t.notices, t.next⟩

/-- What a delivery wants of its surroundings. -/
def want (d : Delivery) : LinkWant :=
  match d.result with
  | some _ => .nothing
  | none => d.operation.want

/-- How a delivery goes on when its surroundings answer. -/
def answer (d : Delivery) (a : LinkAnswer) : Turn Delivery CourierNotice :=
  match d.result with
  | some _ => ⟨[], d⟩
  | none =>
    let t := d.operation.answer a
    let d := { d with operation := t.next }
    let notices := t.notices.map .link
    match t.next.result? with
    | none => ⟨notices, d⟩
    | some r =>
      let t := d.proceed r
      ⟨notices ++ t.notices, t.next⟩

end Delivery

end LogRelay
