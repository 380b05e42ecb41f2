import LogRelay.Box.Seal
import LogRelay.Link.Fault
import LogRelay.Payload

/-!
# Prepared batches

A batch is encoded and sealed once.  Whatever goes wrong on the way, the same octets are offered again.

* `PreparedBatch.ofBatch`: a batch with its wire form;
* `PublishFault`: why a batch was not delivered.
-/

namespace LogRelay

/-- How far the delivery of a batch has come. -/
inductive DeliveryState where
  | pending
  | prepared
  | sending
  | awaitingAck
  | delivered
deriving DecidableEq, Repr

def DeliveryState.name : DeliveryState → String
  | pending => "Pending"
  | prepared => "Prepared"
  | sending => "Sending"
  | awaitingAck => "AwaitingAck"
  | delivered => "Delivered"

/-- Why a batch was not delivered. -/
inductive PublishFault where
  | payload (cause : PayloadFault)
  | box (cause : BoxFault)
  | link (cause : LinkFault)
  | cancelled
deriving Repr

/-- The wording of a fault. -/
def PublishFault.message : PublishFault → String
  | payload cause => cause.message
  | box cause => cause.message
  | link cause => cause.message
  | cancelled => "publisher cancelled"

/-- A batch together with its wire form. -/
structure PreparedBatch where
  batch : Batch
  /-- The first frame. -/
  nonce : Bytes
  /-- The second frame. -/
  ciphertext : Bytes
  state : DeliveryState
  /-- The number of exchanges begun. -/
  attempts : UInt32
deriving DecidableEq

/-- The wire form of a batch under a nonce. -/
def PreparedBatch.ofBatch (b : Batch) (box : Box) (nonce : Bytes) : PreparedBatch :=
  let s := box.sealWith nonce (Payload.encode b.events)
  ⟨b, s.nonce, s.ciphertext, .prepared, 0⟩

end LogRelay
