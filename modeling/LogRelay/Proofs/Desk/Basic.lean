import LogRelay.Courier.Basic
import LogRelay.Proofs.Runs
import LogRelay.Proofs.Wire.Basic

/-!
# A desk for one link

Whoever has a link gives it batches one after the other: a batch is prepared and delivered, or a
prepared batch is delivered, or a courier takes over and is given batches until no more come.  A
`Desk` is such a link with its sockets, in whatever way these answer, and whenever all is called
off.

* `Engagement`: what a link is used for;
* `Desk.move?`, `Desk.run?`: steps and runs of a desk.
-/

namespace LogRelay

/-- What a link is used for: nothing, a delivery, or a courier. -/
inductive Engagement where
  | idle (l : Link)
  | delivering (d : Delivery)
  | running (c : Courier)

namespace Engagement

/-- A delivery, or its link when it has ended. -/
def ofDelivery (d : Delivery) : Engagement :=
  match d.result with
  | none => delivering d
  | some _ => idle d.operation.link

/-- What is wanted of the link's surroundings. -/
def want : Engagement → LinkWant
  | idle _ => .nothing
  | delivering d => d.want
  | running c =>
    match c.want with
    | .link w => w
    | _ => .nothing

/-- How it goes on when the link is answered. -/
def answer (e : Engagement) (a : LinkAnswer) : Engagement :=
  match e with
  | idle l => idle l
  | delivering d => ofDelivery (d.answer a).next
  | running c => running (c.answer (.link a)).next

/-- The delivery that is under way. -/
def delivery? : Engagement → Option Delivery
  | idle _ => none
  | delivering d => some d
  | running c =>
    match c.stage with
    | .delivering d => some d
    | _ => none

end Engagement

/-- A batch that is to be delivered, with its place among all that were given. -/
structure Offer where
  place : Nat
  prepared : PreparedBatch

/-- A link with all that is asked of it. -/
structure Desk where
  keys : Keys
  engagement : Engagement
  wire : Wire := {}
  /-- The batches that were given, the first one first. -/
  given : List Batch := []
  /-- The batches whose delivery has begun, the first one first. -/
  offered : List Offer := []

/-- A step of a desk or of its surroundings: all is called off; a batch is prepared under a nonce
and delivered; a prepared batch is delivered; a courier takes over; the courier is answered by its
queues, or gets the octets of a nonce; the call that is wanted begins; the link is answered. -/
inductive Errand where
  | callOff
  | publish (b : Batch) (nonce : Bytes)
  | deliver (p : PreparedBatch)
  | run
  | queue (a : CourierAnswer)
  | call
  | link (a : LinkAnswer)

/-- The batch that a courier takes in a step. -/
def Errand.taken? : Errand → Option Batch
  | queue (.took (.item b)) => some b
  | _ => none

/-- Whether a courier can be answered so by its queues, or get such a nonce. -/
def CourierAnswer.possible (called : Bool) : CourierAnswer → CourierWant → Bool
  | .took .cancelled, .batch | .handed .cancelled, .room _ => called
  | .took _, .batch | .handed _, .room _ => !called
  | .probed _, .probe => true
  | .nonce bs, .nonce => bs.length = nonceSize
  | _, _ => false

namespace Desk

/-- A desk for a link that was just made. -/
def start (keys : Keys) (l : Link) : Desk := { keys, engagement := .idle l }

/-- The frames of all batches whose delivery has begun. -/
def frames (d : Desk) : List Frames := d.offered.map fun o => o.prepared.frames

/-- The place of the batch that was given last. -/
def place (d : Desk) : Nat := d.given.length - 1

/-- A prepared batch is given, and its delivery begins. -/
def begin (d : Desk) (l : Link) (p : PreparedBatch) : Desk :=
  { d with
    engagement := .ofDelivery (Delivery.start l p).next
    given := d.given ++ [p.batch]
    offered := d.offered ++ [⟨d.given.length, p⟩] }

/-- A courier is answered by its queues, or gets the octets of a nonce. -/
def answerQueue (d : Desk) (c : Courier) (a : CourierAnswer) : Desk :=
  let d := { d with engagement := .running (c.answer a).next }
  match c.stage, a with
  | _, .took (.item b) => { d with given := d.given ++ [b] }
  | .preparing _ b, .nonce bs => { d with offered := d.offered ++ [⟨d.place, .ofBatch b c.box bs⟩] }
  | _, _ => d

/-- What comes of a step, if it is possible. -/
def move? (d : Desk) : Errand → Option Desk
  | .callOff => some { d with wire := d.wire.callOff }
  | .publish b nonce =>
    match d.engagement with
    | .idle l =>
      if b.isEmpty then some { d with given := d.given ++ [b] }
      else if nonce.length = nonceSize then some (d.begin l (.ofBatch b (Box.ofKeys d.keys) nonce))
      else none
    | _ => none
  | .deliver p =>
    match d.engagement with
    | .idle l => some (d.begin l p)
    | _ => none
  | .run =>
    match d.engagement with
    | .idle l => some { d with engagement := .running (Courier.start d.keys l) }
    | _ => none
  | .queue a =>
    match d.engagement with
    | .running c => if a.possible d.wire.called c.want then some (d.answerQueue c a) else none
    | _ => none
  | .call => (d.wire.begin? d.engagement.want).map fun wire => { d with wire }
  | .link a =>
    if d.wire.possible d.engagement.want a then
      some { d with engagement := d.engagement.answer a, wire := d.wire.note d.place a }
    else none

/-- What comes of several steps, if each is possible. -/
abbrev run? : Desk → List Errand → Option Desk := runSteps move?

end Desk

end LogRelay
