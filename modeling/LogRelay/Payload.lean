import LogRelay.Event.Reading
import LogRelay.Zlib.Deflate

/-!
# Payloads

A batch travels as a compressed JSON list of its events.  Every payload is a stream of its own, so each can
be read without the ones before it.

* `Payload.encode`, `Payload.decode`: between events and a payload;
* `PayloadFault`: what can be wrong with a payload.
-/

namespace LogRelay

/-- Why a payload was not made or not read. -/
inductive PayloadFault where
  | serialize (reason : String)
  | deserialize (f : Json.ReadFault)
  | compress (reason : String)
  | decompress (reason : String)
deriving Repr

/-- The wording of a fault. -/
def PayloadFault.message : PayloadFault → String
  | serialize reason => "failed to serialize batch: " ++ reason
  | deserialize f => "failed to deserialize batch: " ++ f.message
  | compress reason => "failed to compress batch: " ++ reason
  | decompress reason => "failed to decompress batch: " ++ reason

namespace Payload

/-- The payload of events. -/
def encode (events : List Event) : Bytes := Zlib.deflate (Event.writeAll events)

/-- What was compressed. -/
def decompress (payload : Bytes) : Except PayloadFault Bytes :=
  (Zlib.inflate payload).mapError fun f => .decompress f.message

def decode (payload : Bytes) : Except PayloadFault (List Event) := do
  let text ← decompress payload
  (Event.readAll text).mapError .deserialize

end Payload

end LogRelay
