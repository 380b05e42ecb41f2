import LogRelay.Courier.Delivery
import LogRelay.Queue

/-!
# Couriers

A `Courier` takes batches from a queue, delivers each, and hands it on to be recorded.  One batch is
delivered before the next is taken.  A courier stops when no more batches come, when all is called off, or
when a batch cannot be delivered at all.

* `Courier.start`: a courier that was just started;
* `Courier.want`: what it wants;
* `Courier.answer`: how it goes on.
-/

namespace LogRelay

/-- What a courier wants of its surroundings. -/
inductive CourierWant where
  /-- A batch, unless all is called off. -/
  | batch
  | nonce
  | link (w : LinkWant)
  /-- Whether anyone records delivered batches. -/
  | probe
  /-- Room for a delivered batch, unless all is called off. -/
  | room (b : Batch)
  | nothing
deriving DecidableEq

/-- What the surroundings answer a courier. -/
inductive CourierAnswer where
  | took (t : Taking Batch)
  | nonce (bs : Bytes)
  | link (a : LinkAnswer)
  /-- Whether nobody records delivered batches. -/
  | probed (closed : Bool)
  | handed (h : Handing)

/-- Where a courier stands. -/
inductive CourierStage where
  | ready (l : Link)
  | preparing (l : Link) (b : Batch)
  | delivering (d : Delivery)
  /-- A batch is delivered, and the courier looks whether it will be recorded. -/
  | checking (l : Link) (b : Batch)
  | handing (l : Link) (b : Batch)
  /-- The link is being closed before the end. -/
  | closing (o : Operation) (result : Except PublishFault Unit)
  | finished (l : Link) (result : Except PublishFault Unit)

/-- A courier at work. -/
structure Courier where
  box : Box
  stage : CourierStage

namespace Courier

/-- What a courier says on the way to its next state, and that state. -/
abbrev Reaction := Turn Courier CourierNotice

def start (keys : Keys) (l : Link) : Courier := ⟨Box.ofKeys keys, .ready l⟩

/-- What a courier has come to. -/
def result? (c : Courier) : Option (Except PublishFault Unit) :=
  match c.stage with
  | .finished _ r => some r
  | _ => none

def want (c : Courier) : CourierWant :=
  match c.stage with
  | .ready _ => .batch
  | .preparing _ _ => .nonce
  | .delivering d => .link d.want
  | .checking _ _ => .probe
  | .handing _ b => .room b
  | .closing o _ => .link o.want
  | .finished _ _ => .nothing

/-- The courier stays as it is, but for its stage. -/
def goto (c : Courier) (notices : List CourierNotice) (stage : CourierStage) : Reaction :=
  ⟨notices, { c with stage }⟩

/-- The link is being closed, or is. -/
def closeWith (c : Courier) (notices : List CourierNotice) (o : Operation)
    (result : Except PublishFault Unit) : Reaction :=
  match o.result? with
  | some _ => c.goto (notices ++ [.stopped]) (.finished o.link result)
  | none => c.goto notices (.closing o result)

/-- The courier comes to its end. -/
def wrapUp (c : Courier) (notices : List CourierNotice) (l : Link)
    (result : Except PublishFault Unit) : Reaction :=
  let t := Operation.start l .close
  c.closeWith (notices ++ t.notices.map .link) t.next result

/-- A delivery goes on, or has ended. -/
def deliver (c : Courier) (notices : List CourierNotice) (d : Delivery) : Reaction :=
  match d.result with
  | none => c.goto notices (.delivering d)
  | some (.ok ()) => c.goto notices (.checking d.operation.link d.prepared.batch)
  | some (.error .cancelled) => c.wrapUp notices d.operation.link (.ok ())
  | some (.error f) => c.wrapUp (notices ++ [.stopping f]) d.operation.link (.error f)

/-- A batch gets its wire form, and its delivery begins. -/
def prepare (c : Courier) (l : Link) (b : Batch) (nonce : Bytes) : Reaction :=
  let p := PreparedBatch.ofBatch b c.box nonce
  let t := Delivery.start l p
  c.deliver (p.notice :: t.notices) t.next

/-- How a courier goes on.  An answer that was not wanted changes nothing. -/
def answer (c : Courier) (a : CourierAnswer) : Reaction :=
  match c.stage, a with
  | .ready l, .took (.item b) =>
    if b.isEmpty then c.goto [.empty b.sequence] (.checking l b) else c.goto [] (.preparing l b)
  | .ready l, .took .closed => c.wrapUp [.queueClosed] l (.ok ())
  | .ready l, .took .cancelled => c.wrapUp [] l (.ok ())
  | .preparing l b, .nonce bs => c.prepare l b bs
  | .delivering d, .link a =>
    let t := d.answer a
    c.deliver t.notices t.next
  | .checking l b, .probed true => c.goto [.unrecorded b.sequence] (.ready l)
  | .checking l b, .probed false => c.goto [] (.handing l b)
  | .handing l b, .handed h =>
    c.goto (match h with
      | .closed => [.unrecorded b.sequence]
      | .accepted | .cancelled => []) (.ready l)
  | .closing o result, .link a =>
    let t := o.answer a
    c.closeWith (t.notices.map .link) t.next result
  | _, _ => ⟨[], c⟩

end Courier

end LogRelay
