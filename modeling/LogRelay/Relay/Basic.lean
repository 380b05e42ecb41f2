import LogRelay.Relay.Polling
import LogRelay.Relay.Status

/-!
# The relay

A relay has three stages in a row, each at work by itself:

    events (16) → batcher → batches (1) → courier → delivered batches (1) → ledger

Each owns its ends of the queues, and when it ends or dies they go with it.  When the producers of events
are gone, the stages end one after the other, and what was accepted is delivered first.  Calling off ends
them all at once.  A supervisor waits for the three and then says how it went.

A relay moves in single steps, in whatever order its surroundings choose.

* `Move`: a step;
* `Relay.move?`: what comes of a step, if it is possible;
* `Relay.result?`: how it went, once all stages have ended.
-/

namespace LogRelay

/-- A stage at work, or what became of it. -/
inductive Worker (σ : Type) where
  | running (s : σ)
  | ended (s : σ)
  | died (reason : String)

/-- Whether a stage is at work. -/
def Worker.isRunning {σ : Type} : Worker σ → Bool
  | running _ => true
  | _ => false

/-- What the supervisor waits for. -/
inductive Supervisor where
  | idle
  | awaitingCourier
  | awaitingBatcher (published : Except RelayFault Unit)
  | awaitingLedger (published : Except RelayFault Unit)
  | ended (result : Except RelayFault Unit)

/-- The capacities of the queues. -/
structure Capacities where
  events : Nat := 16
  batches : Nat := 1
  delivered : Nat := 1
deriving DecidableEq

/-- A relay at work. -/
structure Relay where
  now : Instant
  called : Bool
  events : Queue Event
  batches : Queue Batch
  delivered : Queue Batch
  batcher : Worker Batcher
  courier : Worker Courier
  /-- Whether a call of the courier's link is under way. -/
  calling : Bool
  ledger : Worker Ledger
  /-- The positions for all to see. -/
  positions : Positions
  status : Status
  /-- The changes of the status that were announced, the first one first. -/
  announced : List Status
  supervisor : Supervisor

/-- A step of a relay or of its surroundings. -/
inductive Move where
  | announce
  | addProducer
  | dropProducer
  | accept (e : Event)
  /-- A stage goes on at its queues. -/
  | stage (s : StageName)
  | nonce (bs : Bytes)
  | call
  | link (a : LinkAnswer)
  | die (s : StageName) (reason : String)
  | stop
  | supervise
  | pass (d : Duration)

namespace Relay

/-- What a relay says on the way to its next state, and that state. -/
abbrev Reaction := List RelayNotice × Relay

/-- A relay that is started at `now`, before any of its stages has moved. -/
def start (capacities : Capacities) (settings : BatcherSettings) (keys : Keys) (l : Link)
    (now : Instant) : Relay where
  now := now
  called := false
  events := { capacity := capacities.events }
  batches := { capacity := capacities.batches }
  delivered := { capacity := capacities.delivered }
  batcher := .running (Batcher.start settings now)
  courier := .running (Courier.start keys l)
  calling := false
  ledger := .running {}
  positions := ∅
  status := .starting
  announced := []
  supervisor := .idle

/-- How it went, once all stages have ended. -/
def result? (r : Relay) : Option (Except RelayFault Unit) :=
  match r.supervisor with
  | .ended result => some result
  | _ => none

/-- Whether all stages are at work. -/
def isRunning (r : Relay) : Bool := r.status == .running

/-! ### Stages come to their end -/

/-- The batcher's ends of the queues go. -/
def releaseBatcher (r : Relay) : Relay :=
  { r with events := r.events.dropReceiver, batches := r.batches.dropSender }

/-- The courier's ends of the queues go. -/
def releaseCourier (r : Relay) : Relay :=
  { r with batches := r.batches.dropReceiver, delivered := r.delivered.dropSender, calling := false }

/-- The ledger's end of the queue goes. -/
def releaseLedger (r : Relay) : Relay := { r with delivered := r.delivered.dropReceiver }

/-! ### Stages move -/

/-- The batcher has moved. -/
def setBatcher (r : Relay) (b : Batcher) : Relay :=
  if b.isFinished then { r with batcher := .ended b }.releaseBatcher
  else { r with batcher := .running b }

/-- The courier has moved.  One that ends with a fault calls everything off. -/
def setCourier (r : Relay) (c : Courier) : Relay :=
  match c.result? with
  | none => { r with courier := .running c }
  | some (.ok ()) => { r with courier := .ended c }.releaseCourier
  | some (.error _) => { r with courier := .ended c, called := true }.releaseCourier

/-- The ledger has moved. -/
def setLedger (r : Relay) (l : Ledger) : Relay :=
  if l.finished then { r with ledger := .ended l }.releaseLedger
  else { r with ledger := .running l, positions := l.positions }

def answerCourier (r : Relay) (c : Courier) (a : CourierAnswer) : Reaction :=
  let t := c.answer a
  (t.notices.map .courier, r.setCourier t.next)

/-- A stage goes on at its queues, unless it has to wait. -/
def stageMove? (r : Relay) : StageName → Option Reaction
  | .batcher =>
    match r.batcher with
    | .running b =>
      (b.poll? r.called r.now r.events r.batches).map fun (a, events, batches) =>
        let (notices, b) := b.answer r.now a
        (notices.map .batcher, { r with events, batches }.setBatcher b)
    | _ => none
  | .courier =>
    match r.courier with
    | .running c =>
      (c.poll? r.called r.batches r.delivered).map fun (a, batches, delivered) =>
        { r with batches, delivered }.answerCourier c a
    | _ => none
  | .ledger =>
    match r.ledger with
    | .running l =>
      (l.poll? r.called r.delivered).map fun (a, delivered) =>
        let (notices, l) := l.answer a
        (notices.map .ledger, { r with delivered }.setLedger l)
    | _ => none

/-- What the courier's link wants. -/
def linkWant? (r : Relay) : Option LinkWant :=
  match r.courier with
  | .running c =>
    match c.want with
    | .link w => some w
    | _ => none
  | _ => none

/-- Whether an outcome can come now.  When all was called off, a call does not begin, and one that is under
way is given up. -/
def outcomePossible (r : Relay) : Outcome → Bool
  | .withheld => r.called && !r.calling
  | .abandoned => r.called && r.calling
  | .done _ | .failed _ | .expired => !r.called && r.calling

/-- Whether an answer for the courier's link can come now. -/
def linkAnswerPossible (r : Relay) (w : LinkWant) (a : LinkAnswer) : Bool :=
  a.fits w &&
    match a with
    | .outcome o => r.outcomePossible o
    | .rested whole => whole || r.called
    | _ => true

/-- The call that the courier's link wants begins. -/
def callMove? (r : Relay) : Option Reaction :=
  match r.linkWant? with
  | some (.call _ _) => if r.called || r.calling then none else some ([], { r with calling := true })
  | _ => none

/-- The courier's link is answered. -/
def linkMove? (r : Relay) (a : LinkAnswer) : Option Reaction :=
  match r.courier, r.linkWant? with
  | .running c, some w =>
    if r.linkAnswerPossible w a then some ({ r with calling := false }.answerCourier c (.link a))
    else none
  | _, _ => none

/-- The courier gets the octets of a nonce. -/
def nonceMove? (r : Relay) (bs : Bytes) : Option Reaction :=
  match r.courier with
  | .running c =>
    match c.want with
    | .nonce => if bs.length = nonceSize then some (r.answerCourier c (.nonce bs)) else none
    | _ => none
  | _ => none

def dieMove? (r : Relay) (reason : String) : StageName → Option Reaction
  | .batcher =>
    if r.batcher.isRunning then some ([], { r with batcher := .died reason }.releaseBatcher) else none
  | .courier =>
    if r.courier.isRunning then some ([], { r with courier := .died reason }.releaseCourier) else none
  | .ledger =>
    if r.ledger.isRunning then some ([], { r with ledger := .died reason }.releaseLedger) else none

/-! ### The relay as a whole -/

/-- All is called off, unless everything has ended. -/
def stop (r : Relay) : Relay :=
  if r.status = .stopped then r
  else { r with status := .stopping, announced := r.announced ++ [.stopping], called := true }

/-- What the courier has come to. -/
def published? (r : Relay) : Option (Except RelayFault Unit) :=
  match r.courier with
  | .running _ => none
  | .died reason => some (.error (.task reason))
  | .ended c =>
    match c.result? with
    | some (.error f) => some (.error (.publish f))
    | _ => some (.ok ())

/-- The supervisor goes on, unless it has to wait. -/
def superviseMove? (r : Relay) : Option Reaction :=
  match r.supervisor with
  | .idle | .ended _ => none
  | .awaitingCourier =>
    r.published?.map fun published => ([], { r with supervisor := .awaitingBatcher published })
  | .awaitingBatcher published =>
    match r.batcher with
    | .running _ => none
    | .ended _ => some ([], { r with supervisor := .awaitingLedger published })
    | .died reason => some ([.batcherDied reason], { r with supervisor := .awaitingLedger published })
  | .awaitingLedger published =>
    let stopped : Relay :=
      { r with
        status := .stopped
        announced := r.announced ++ [.stopped]
        supervisor := .ended published }
    match r.ledger with
    | .running _ => none
    | .ended _ => some ([.stopped], stopped)
    | .died reason => some ([.ledgerDied reason, .stopped], stopped)

/-- The relay says that it runs. -/
def announceMove? (r : Relay) : Option Reaction :=
  if r.status = .starting then
    some ([.running],
      { r with
        status := .running
        announced := r.announced ++ [.running]
        supervisor := .awaitingCourier })
  else none

/-- What comes of a step, if it is possible. -/
def move? (r : Relay) : Move → Option Reaction
  | .announce => r.announceMove?
  | .addProducer => if 0 < r.events.senders then some ([], { r with events := r.events.addSender }) else none
  | .dropProducer => if 0 < r.events.senders then some ([], { r with events := r.events.dropSender }) else none
  | .accept e =>
    if 0 < r.events.senders then
      match r.events.send e with
      | .accepted events => some ([], { r with events })
      | _ => none
    else none
  | .stage s => r.stageMove? s
  | .nonce bs => r.nonceMove? bs
  | .call => r.callMove?
  | .link a => r.linkMove? a
  | .die s reason => r.dieMove? reason s
  | .stop => if r.status = .starting then none else some ([], r.stop)
  | .supervise => r.superviseMove?
  | .pass d => some ([], { r with now := r.now + d.nanos })

end Relay

end LogRelay
