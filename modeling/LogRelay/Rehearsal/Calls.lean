import LogRelay.Courier.Delivery
import LogRelay.Rehearsal.Network

/-!
# Rehearsing operations one by one

A caller makes one operation after the other and waits for each, for a limited time.  While it waits, the
clock jumps from one moment at which something is due to the next.

* `await`: waits for an operation or a delivery;
* `LinkCaller.step`: a step of a caller that uses a link;
* `BatchCaller.step`: a step of a caller that delivers batches.
-/

namespace LogRelay.Rehearsal

/-- The number of turns after which a rehearsal is broken off. -/
def patience : Nat := 1000000000

/-- A clock, a network, and the mark that all was called off. -/
structure World where
  now : Instant := 0
  called : Bool := false
  network : Network

/-- How the wait for something ended. -/
inductive Waited where
  | done
  | limit
  | died
deriving DecidableEq, Repr

/-- Something that can be waited for. -/
structure Machine (σ ν : Type) where
  want : σ → LinkWant
  answer : σ → LinkAnswer → Turn σ ν

/-- The state of a wait; notices are kept with the latest first. -/
structure Wait (σ ν : Type) where
  world : World
  /-- What is waited for. -/
  state : σ
  notices : List ν
  ended : Waited

/-- Waits until the machine wants nothing any more, or until the limit.  If it has not ended at `callAt`, all
is called off. -/
def await {σ ν : Type} (m : Machine σ ν) (limit : Instant) (callAt : Option Instant) :
    (fuel : Nat) → World → σ → List ν → Wait σ ν
  | 0, w, s, notices => ⟨w, s, notices, .limit⟩
  | fuel + 1, w, s, notices =>
    match m.want s with
    | .nothing => ⟨w, s, notices, .done⟩
    | want =>
      match w.network.attend w.now w.called want with
      | (network, .answered a) =>
        let t := m.answer s a
        await m limit callAt fuel { w with network } t.next (t.notices.reverse ++ notices)
      | (network, .dies) => ⟨{ w with network }, s, notices, .died⟩
      | (network, .waits) =>
        if limit ≤ w.now then ⟨{ w with network := network.forget }, s, notices, .limit⟩
        else
          let callAt' := if w.called then none else callAt
          let next := (Network.earlier network.wake? callAt').getD limit
          let now := max w.now (min next limit)
          let called := w.called || (match callAt' with
            | some t => decide (t ≤ now)
            | none => false)
          await m limit callAt fuel { now, called, network } s notices

/-- How long to wait for something, and when to call it off. -/
structure Terms where
  limit : Duration := .ofMillis 60000
  /-- How long until all is called off. -/
  cancelAfter : Option Duration := none

/-- Waits on terms that count from now. -/
def World.await {σ ν : Type} (w : World) (m : Machine σ ν) (terms : Terms) (t : Turn σ ν) :
    Wait σ ν :=
  let r := Rehearsal.await m (w.now + terms.limit.nanos)
    (terms.cancelAfter.map fun d => w.now + d.asRest.nanos) patience w t.next t.notices.reverse
  { r with notices := r.notices.reverse }

/-- The clock moves while nothing is waited for. -/
def World.pass (w : World) (d : Duration) : World := { w with now := w.now + d.asRest.nanos }

def World.callOff (w : World) : World := { w with called := true }

/-- What was asked of the network since the last time. -/
def World.takeDeeds (w : World) : List (Instant × Deed) × World :=
  let (deeds, network) := w.network.takeDeeds
  (deeds, { w with network })

/-! ### A caller that uses a link -/

def operationMachine : Machine Operation LinkNotice := ⟨Operation.want, Operation.answer⟩

/-- A caller that uses a link. -/
structure LinkCaller where
  world : World
  link : Link

/-- A step of such a caller. -/
inductive LinkStep where
  | operate (goal : Goal) (terms : Terms)
  | callOff
  | pass (d : Duration)

/-- What such a step came to. -/
inductive LinkStepResult where
  | ok
  | ended (goal : Goal) (r : LinkResult)
  | limit
  | died

namespace LinkCaller

/-- Takes a step; gives what it came to and what the link said. -/
def step (c : LinkCaller) : LinkStep → LinkStepResult × List LinkNotice × LinkCaller
  | .operate goal terms =>
    let r := c.world.await operationMachine terms (Operation.start c.link goal)
    let c : LinkCaller := ⟨r.world, r.state.link⟩
    let result := match r.ended, r.state.result? with
      | .done, some result => .ended goal result
      | .died, _ => .died
      | _, _ => .limit
    (result, r.notices, c)
  | .callOff => (.ok, [], { c with world := c.world.callOff })
  | .pass d => (.ok, [], { c with world := c.world.pass d })

end LinkCaller

/-! ### A caller that delivers batches -/

def deliveryMachine : Machine Delivery CourierNotice := ⟨Delivery.want, Delivery.answer⟩

/-- A caller that delivers batches. -/
structure BatchCaller where
  world : World
  link : Link
  box : Box
  /-- The batch that was prepared last and is kept. -/
  kept : Option PreparedBatch := none

/-- A step of such a caller. -/
inductive BatchStep where
  | publish (b : Batch) (terms : Terms)
  | prepare (b : Batch)
  | deliver (terms : Terms)
  | giveBack
  | callOff
  | pass (d : Duration)

/-- What such a step came to. -/
inductive BatchStepResult where
  | ok
  | none
  | published (b : Batch)
  | givenBack (b : Batch)
  | failed (f : PublishFault)
  | limit
  | died

namespace BatchCaller

/-- Prepares a batch under the next nonce. -/
def prepare (c : BatchCaller) (b : Batch) : PreparedBatch × BatchCaller :=
  let (nonce, network) := c.world.network.draw nonceSize
  (PreparedBatch.ofBatch b c.box nonce, { c with world := { c.world with network } })

/-- Delivers a prepared batch; gives it as it is afterwards. -/
def deliver (c : BatchCaller) (p : PreparedBatch) (terms : Terms) (success : BatchStepResult) :
    BatchStepResult × List CourierNotice × PreparedBatch × BatchCaller :=
  let r := c.world.await deliveryMachine terms (Delivery.start c.link p)
  let c := { c with world := r.world, link := r.state.operation.link }
  let result := match r.ended, r.state.result with
    | .done, some (.ok ()) => success
    | .done, some (.error f) => .failed f
    | .died, _ => .died
    | _, _ => .limit
  (result, r.notices, r.state.prepared, c)

/-- Takes a step; gives what it came to and what was said. -/
def step (c : BatchCaller) : BatchStep → BatchStepResult × List CourierNotice × BatchCaller
  | .publish b terms =>
    if b.isEmpty then (.published b, [.empty b.sequence], c)
    else
      let (p, c) := c.prepare b
      let (result, notices, _, c) := c.deliver p terms (.published b)
      (result, p.notice :: notices, c)
  | .prepare b =>
    let (p, c) := c.prepare b
    (.ok, [p.notice], { c with kept := some p })
  | .deliver terms =>
    match c.kept with
    | none => (.none, [], c)
    | some p =>
      let (result, notices, p, c) := c.deliver p terms .ok
      (result, notices, { c with kept := some p })
  | .giveBack =>
    match c.kept with
    | none => (.none, [], c)
    | some p => (.givenBack p.batch, [], { c with kept := none })
  | .callOff => (.ok, [], { c with world := c.world.callOff })
  | .pass d => (.ok, [], { c with world := c.world.pass d })

end BatchCaller

end LogRelay.Rehearsal
