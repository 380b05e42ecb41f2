import LogRelay.Rehearsal.Calls
import LogRelay.Relay.Basic

/-!
# Rehearsing a relay

A `Bench` runs a relay, or a single stage of one, against a scripted network.  All stages go on until each has
to wait; only then does the clock move, to the next moment at which something is due.

Whoever rehearses has a producer's end of the first queue, and the ends of those queues that no stage holds.

* `Bench.launch`, `Bench.launchSingle`: a relay, or one stage of it, that has just been started;
* `Bench.settle`: all stages go on until they wait;
* `Bench.pass`: time passes, and what is due happens;
* `Bench.conclude`: waits for the relay to end;
* `Bench.handIn`, `Bench.giveBatch`, `Bench.takeBatch` and so on: using the ends of the queues.
-/

namespace LogRelay.Rehearsal

/-- A relay and a network. -/
structure Bench where
  relay : Relay
  network : Network
  /-- Whether whoever rehearses still is a producer. -/
  holding : Bool := true
  /-- Whether its end was not waited for yet. -/
  unawaited : Bool := true

/-- What was said, the latest first, and a bench. -/
structure Said where
  notices : List RelayNotice
  bench : Bench

/-- Says something more. -/
def Said.append (s later : Said) : Said := ⟨later.notices ++ s.notices, later.bench⟩

namespace Bench

/-- The bench with its relay after a step, if the step is possible. -/
def move? (b : Bench) (m : Move) : Option Said :=
  (b.relay.move? m).map fun (notices, relay) => ⟨notices.reverse, { b with relay }⟩

/-- The bench with its relay after a step, or as it is. -/
def move (b : Bench) (m : Move) : Said := (b.move? m).getD ⟨[], b⟩

/-- The reason that a scripted death gives. -/
def deathReason : String := "task panicked"

/-- The network answers the courier's link, if it has an answer; `true` says that the courier has moved. -/
def linkTurn (b : Bench) (w : LinkWant) : Bool × Said :=
  -- a call begins as soon as it is wanted
  let b := (b.move .call).bench
  match b.network.attend b.relay.now b.relay.called w with
  | (network, .answered a) => (true, { b with network }.move (.link a))
  | (network, .dies) => (true, { b with network := network.forget }.move (.die .courier deathReason))
  | (network, .waits) => (false, ⟨[], { b with network }⟩)

/-- The courier gets what it wants of the network or of the random source. -/
def outsideTurn (b : Bench) : Bool × Said :=
  match b.relay.courier with
  | .running c =>
    match c.want with
    | .nonce =>
      let (bs, network) := b.network.draw nonceSize
      (true, { b with network }.move (.nonce bs))
    | .link w => b.linkTurn w
    | _ => (false, ⟨[], b⟩)
  | _ => (false, ⟨[], b⟩)

/-- A step of a stage; `true` says that there was one. -/
def stageTurn (s : StageName) (b : Bench) : Bool × Said :=
  match b.move? (.stage s), s with
  | some said, _ => (true, said)
  | none, .courier => b.outsideTurn
  | none, _ => (false, ⟨[], b⟩)

/-- A step of the supervisor; `true` says that there was one. -/
def superviseTurn (b : Bench) : Bool × Said :=
  match b.move? .supervise with
  | some said => (true, said)
  | none => (false, ⟨[], b⟩)

/-- Takes steps until there is none; `true` says that there was one. -/
def exhaust (turn : Bench → Bool × Said) : (fuel : Nat) → Bool → Said → Bool × Said
  | 0, moved, said => (moved, said)
  | fuel + 1, moved, said =>
    match turn said.bench with
    | (true, next) => exhaust turn fuel true (said.append next)
    | (false, next) => (moved, said.append next)

/-- One after the other, the stages and the supervisor go on until they have to wait.  None of them is held up
by the others as long as it need not wait. -/
def round (said : Said) : Bool × Said :=
  let (moved, said) := exhaust (stageTurn .batcher) patience false said
  let (moved, said) := exhaust (stageTurn .courier) patience moved said
  let (moved, said) := exhaust (stageTurn .ledger) patience moved said
  exhaust superviseTurn patience moved said

/-- All go on until they have to wait. -/
def settle : (fuel : Nat) → List RelayNotice → Bench → Said
  | 0, notices, b => ⟨notices, b⟩
  | fuel + 1, notices, b =>
    match round ⟨notices, b⟩ with
    | (true, said) => settle fuel said.notices said.bench
    | (false, said) => said

/-- When the batcher has something to do by the clock. -/
def batcherWake? (b : Bench) : Option Instant :=
  match b.relay.batcher with
  | .running s =>
    match s.want with
    | .event deadline => deadline
    | _ => none
  | _ => none

/-- When something is due next. -/
def wake? (b : Bench) : Option Instant := Network.earlier b.network.wake? b.batcherWake?

def setClock (b : Bench) (t : Instant) : Bench :=
  (b.move (.pass (.ofNanos (t - b.relay.now)))).bench

/-- All go on, and time passes, until the relay has ended or the given time has come. -/
def run (untilEnd : Bool) (limit : Instant) : (fuel : Nat) → List RelayNotice → Bench → Said
  | 0, notices, b => ⟨notices, b⟩
  | fuel + 1, notices, b =>
    let ⟨notices, b⟩ := b.settle patience notices
    if (untilEnd && b.relay.result?.isSome) || limit ≤ b.relay.now then ⟨notices, b⟩
    else
      let t := match b.wake? with
        | some t => max b.relay.now (min t limit)
        | none => limit
      run untilEnd limit fuel notices (b.setClock t)

/-- All go on, and time passes. -/
def pass (b : Bench) (d : Duration) : Said := run false (b.relay.now + d.asRest.nanos) patience [] b

/-- All go on until they have to wait, at the present time. -/
def settled (b : Bench) : Said := b.settle patience []

/-! ### Waiting for a relay to end -/

/-- How the wait for a relay ended. -/
inductive Finish where
  | ended (result : Except RelayFault Unit)
  | limit

/-- How a wait has ended. -/
def finishOf (b : Bench) : Finish :=
  match b.relay.result? with
  | some r => .ended r
  | none => .limit

/-- Waits for the relay to end; if it has not by `shutdown`, it is called off. -/
def finish (b : Bench) (shutdown : Option Instant) (limit : Instant) : Finish × Said :=
  let stopAt := match shutdown with
    | some t => min t limit
    | none => limit
  let said := run true stopAt patience [] b
  if said.bench.relay.result?.isSome || limit ≤ stopAt then (said.bench.finishOf, said)
  else
    let said := said.append ⟨[.shutdownWhileDraining], said.bench⟩
    let said := said.append (said.bench.move .stop)
    let rest := run true limit patience [] said.bench
    (rest.bench.finishOf, said.append rest)

/-- The relay's own producer's end goes, and its end is waited for; this can be done only once. -/
def conclude (b : Bench) (shutdown : Option Duration) (limit : Duration) : Option Finish × Said :=
  if b.unawaited then
    let b := { (b.move .dropProducer).bench with unawaited := false }
    let now := b.relay.now
    let (f, said) := b.finish (shutdown.map fun d => now + d.asRest.nanos) (now + limit.nanos)
    (some f, said)
  else (none, ⟨[], b⟩)

/-! ### Handing in events -/

/-- What came of handing something in without waiting. -/
inductive Handed where
  | ok
  | full
  | closed
  /-- Whoever wants to hand it in has given up the right to. -/
  | noSender
deriving DecidableEq, Repr

/-- Hands in an event without waiting. -/
def handIn (b : Bench) (e : Event) : Handed × Bench :=
  if !b.holding then (.noSender, b) else
  match b.relay.events.send e with
  | .accepted _ => (.ok, (b.move (.accept e)).bench)
  | .full => (.full, b)
  | .closed => (.closed, b)

/-- Hands in events one after the other without waiting; if `settling`, all go on after each. -/
def handInAll (settling : Bool) : List Event → List RelayNotice → Bench → List Handed × Said
  | [], notices, b => ([], ⟨notices, b⟩)
  | e :: es, notices, b =>
    let (h, b) := b.handIn e
    let ⟨notices, b⟩ := if settling then b.settle patience notices else ⟨notices, b⟩
    let (hs, said) := handInAll settling es notices b
    (h :: hs, said)

/-- How the handing in of events with waiting ended. -/
inductive HandInEnd where
  | ok
  | closed
  | limit
deriving DecidableEq, Repr

/-- Hands in events, waiting for room; gives the number of those accepted. -/
def handInWaiting (limit : Instant) : (fuel : Nat) → Nat → List Event → List RelayNotice → Bench →
    Nat × HandInEnd × Said
  | _, count, [], notices, b => (count, .ok, ⟨notices, b⟩)
  | 0, count, _ :: _, notices, b => (count, .limit, ⟨notices, b⟩)
  | fuel + 1, count, e :: es, notices, b =>
    match b.handIn e with
    | (.ok, b) => handInWaiting limit fuel (count + 1) es notices b
    | (.closed, b) | (.noSender, b) => (count, .closed, ⟨notices, b⟩)
    | (.full, b) =>
      let ⟨notices, b⟩ := b.settle patience notices
      match b.relay.events.send e with
      | .full =>
        if limit ≤ b.relay.now then (count, .limit, ⟨notices, b⟩)
        else
          let t := match b.wake? with
            | some t => max b.relay.now (min t limit)
            | none => limit
          handInWaiting limit fuel count (e :: es) notices (b.setClock t)
      | _ => handInWaiting limit fuel count (e :: es) notices b

/-- Whoever rehearses is no producer any more. -/
def letGo (b : Bench) : Bench :=
  if b.holding then { (b.move .dropProducer).bench with holding := false } else b

/-! ### Handing on batches -/

/-- Puts a batch into a queue without waiting. -/
def offer (q : Queue Batch) (x : Batch) : Handed × Queue Batch :=
  if q.senders = 0 then (.noSender, q) else
  match q.send x with
  | .accepted q => (.ok, q)
  | .full => (.full, q)
  | .closed => (.closed, q)

/-- What came of looking for a batch without waiting. -/
inductive Taken where
  | batch (x : Batch)
  | empty
  | disconnected
  /-- Whoever looks has given up the right to. -/
  | noReceiver
deriving DecidableEq

def look (q : Queue Batch) : Taken × Queue Batch :=
  if q.isClosed then (.noReceiver, q) else
  match q.receive with
  | .item x q => (.batch x, q)
  | .empty => (.empty, q)
  | .finished => (.disconnected, q)

/-- The bench with another queue of batches. -/
def withBatches (b : Bench) (q : Queue Batch) : Bench := { b with relay := { b.relay with batches := q } }

/-- The bench with another queue of delivered batches. -/
def withDelivered (b : Bench) (q : Queue Batch) : Bench :=
  { b with relay := { b.relay with delivered := q } }

/-- Hands a batch to the courier. -/
def giveBatch (b : Bench) (x : Batch) : Handed × Bench :=
  let (h, q) := offer b.relay.batches x
  (h, b.withBatches q)

/-- Hands a batch to the ledger. -/
def giveDelivered (b : Bench) (x : Batch) : Handed × Bench :=
  let (h, q) := offer b.relay.delivered x
  (h, b.withDelivered q)

/-- Looks for a batch of the batcher. -/
def takeBatch (b : Bench) : Taken × Bench :=
  let (t, q) := look b.relay.batches
  (t, b.withBatches q)

/-- Looks for a batch of the courier. -/
def takeDelivered (b : Bench) : Taken × Bench :=
  let (t, q) := look b.relay.delivered
  (t, b.withDelivered q)

/-- No more batches will be handed to the courier. -/
def endBatches (b : Bench) : Bench := b.withBatches b.relay.batches.dropSender

/-- No more batches will be handed to the ledger. -/
def endDelivered (b : Bench) : Bench := b.withDelivered b.relay.delivered.dropSender

/-- Nobody will look for batches of the batcher. -/
def refuseBatches (b : Bench) : Bench := b.withBatches b.relay.batches.dropReceiver

/-- Nobody will look for batches of the courier. -/
def refuseDelivered (b : Bench) : Bench := b.withDelivered b.relay.delivered.dropReceiver

/-! ### Starting -/

/-- A stage that takes no part, with its ends of the queues in other hands. -/
def absent {σ : Type} : Worker σ := .died "takes no part"

/-- A relay of which only one stage is at work. -/
def single (s : StageName) (r : Relay) : Relay :=
  match s with
  | .batcher => { r with courier := absent, ledger := absent }
  | .courier => { r with batcher := absent, ledger := absent }
  | .ledger => { r with batcher := absent, courier := absent }

/-- All is called off, by whoever holds the mark. -/
def callOff (b : Bench) : Bench := { b with relay := { b.relay with called := true } }

/-- A batcher for batches of this size says that it has started; one that cannot have its spool dies. -/
def startBatcher (size : Nat) (b : Bench) : Said :=
  ⟨[.batcher .started], if Batcher.canHold size then b else (b.move (.die .batcher deathReason)).bench⟩

/-- One stage of a relay that was just started. -/
def launchSingle (s : StageName) (size : Nat) (r : Relay) (n : Network) : Said :=
  let b : Bench := ⟨single s r, n, true, true⟩
  match s with
  | .batcher => b.startBatcher size
  | .courier => ⟨[.courier .started], b⟩
  | .ledger => ⟨[], b⟩

/-- A relay that was just started, with one producer besides its own. -/
def launch (size : Nat) (r : Relay) (n : Network) : Said :=
  let said := (Bench.mk r n true true).move .announce
  let b := (said.bench.move .addProducer).bench
  said.append (Said.append ⟨[.courier .started], b⟩ (b.startBatcher size))

end Bench

end LogRelay.Rehearsal
