import LogRelay.Link.Operation
import LogRelay.Random
import LogRelay.Text.Utf8

/-!
# A scripted network

A rehearsal runs against a network that follows a script: for each kind of call there is a row of cues, one
for each call in turn, and a call without a cue succeeds at once.  The network keeps the call or the rest
that is under way, and a list of everything that was asked of it.

The network goes by the ideal clock of `Duration`, to the nanosecond.  Scripts are given in whole milliseconds,
the ticks of the timers by which a network at work keeps its limits and rests; spans between two ticks are not
rounded up here.

* `Cue`: how one call is to end, and when;
* `Network.attend`: what the network answers at a moment.
-/

namespace LogRelay.Rehearsal

/-- How a scripted call ends. -/
inductive Ending where
  /-- It succeeds; a received frame has these octets, or others by default. -/
  | succeeds (frame : Option Bytes)
  /-- It fails with the fault of its kind of call. -/
  | fails
  | failsWith (cause : SocketFault)
  | notConnected
  | empty
  | hangs
  /-- Whoever made it dies. -/
  | dies
deriving DecidableEq, Repr

/-- How a call is to end, and how long after it began. -/
structure Cue where
  after : Duration := .zero
  ending : Ending := .succeeds none
deriving DecidableEq

/-- The cues of all calls. -/
structure Script where
  sockets : List Cue := []
  connects : List Cue := []
  sends : List Cue := []
  receives : List Cue := []
  /-- How every attempt to connect to a collector ends, where no cue decides. -/
  fate : Address → Option Ending := fun _ => none

namespace Script

/-- The script in which every attempt to connect to the collectors with these URIs ends alike. -/
def doom (s : Script) (e : Ending) (uris : List String) : Script :=
  { s with fate := fun a => if uris.contains a.uri then some e else s.fate a }

/-- The script in which the collectors with these URIs refuse to be connected. -/
def refuse (s : Script) (uris : List String) : Script :=
  s.doom (.failsWith (.system "connection refused")) uris

/-- The script in which the collectors with these URIs never answer an attempt to connect. -/
def stall (s : Script) (uris : List String) : Script := s.doom .hangs uris

end Script

/-- What was asked of the network. -/
inductive Deed where
  | opened
  | called (c : Call)
  | closed
deriving DecidableEq, Repr

/-- What is under way. -/
inductive Pending where
  /-- A call that ends at `due`, if ever, and is given up at `deadline`. -/
  | call (due : Option Instant) (ending : Ending) (deadline : Instant)
  | rest (until_ : Instant)

/-- A network and the random source of those who use it. -/
structure Network where
  script : Script
  random : Random
  /-- What was asked, and when, the latest first. -/
  deeds : List (Instant × Deed) := []
  pending : Option Pending := none

/-- What comes of a want at a moment. -/
inductive Reaction where
  | answered (a : LinkAnswer)
  | waits
  | dies

namespace Network

/-- The first cue of a row, and the others. -/
def nextCue : List Cue → Cue × List Cue
  | [] => ({}, [])
  | c :: cs => (c, cs)

/-- The octets of a reply that the script leaves open. -/
def defaultReply : Bytes := Utf8.ofString "ack"

/-- The fault of each kind of call. -/
def faultOf : Call → SocketFault
  | .connect _ => .system "connection refused"
  | .send _ _ => .system "broken pipe"
  | .receive => .system "connection reset"

/-- What comes of a call that ends. -/
def outcomeOf (c : Call) : Ending → Option Outcome
  | .succeeds frame =>
    match c with
    | .receive => some (.done (frame.getD defaultReply))
    | _ => some (.done [])
  | .fails => some (.failed (faultOf c))
  | .failsWith cause => some (.failed cause)
  | .notConnected => some (.failed .notConnected)
  | .empty => some (.failed .emptyMessage)
  | .hangs | .dies => none

/-- The cue of a call, and the script after it. -/
def cueOf (s : Script) : Call → Cue × Script
  | .connect a =>
    match s.fate a with
    | some ending => ({ ending }, s)
    | none =>
      let (c, rest) := nextCue s.connects
      (c, { s with connects := rest })
  | .send _ _ =>
    let (c, rest) := nextCue s.sends
    (c, { s with sends := rest })
  | .receive =>
    let (c, rest) := nextCue s.receives
    (c, { s with receives := rest })

/-- Notes that something was asked. -/
def note (n : Network) (now : Instant) (d : Deed) : Network := { n with deeds := (now, d) :: n.deeds }

def begin (n : Network) (now : Instant) (c : Call) (limit : Duration) : Network :=
  let (cue, script) := cueOf n.script c
  let due := match cue.ending with
    | .hangs => none
    | _ => some (now + cue.after.asRest.nanos)
  { n.note now (.called c) with script, pending := some (.call due cue.ending (now + limit.nanos)) }

/-- A call that is under way: it ends, or is given up, or goes on.  One that ends just when it would be
given up has ended. -/
def proceed (n : Network) (now : Instant) (c : Call) (due : Option Instant) (ending : Ending)
    (deadline : Instant) : Network × Reaction :=
  let idle : Network := { n with pending := none }
  let isDue := match due with
    | some t => decide (t ≤ now)
    | none => false
  if isDue then
    match outcomeOf c ending with
    | some o => (idle, .answered (.outcome o))
    | none => (idle, .dies)
  else if deadline ≤ now then (idle, .answered (.outcome .expired))
  else (n, .waits)

/-- What comes of wanting a call. -/
def attendCall (n : Network) (now : Instant) (called : Bool) (c : Call) (limit : Duration) :
    Network × Reaction :=
  match n.pending with
  | some (.call due ending deadline) =>
    if called then ({ n with pending := none }, .answered (.outcome .abandoned))
    else n.proceed now c due ending deadline
  | _ =>
    if called then (n, .answered (.outcome .withheld))
    else
      let n := n.begin now c limit
      match n.pending with
      | some (.call due ending deadline) => n.proceed now c due ending deadline
      | _ => (n, .waits)

/-- What comes of wanting a rest. -/
def attendRest (n : Network) (now : Instant) (called : Bool) (d : Duration) : Network × Reaction :=
  let until_ := match n.pending with
    | some (.rest t) => t
    | _ => now + d.asRest.nanos
  if called then ({ n with pending := none }, .answered (.rested false))
  else if until_ ≤ now then ({ n with pending := none }, .answered (.rested true))
  else ({ n with pending := some (.rest until_) }, .waits)

/-- What comes of wanting a socket. -/
def attendSocket (n : Network) (now : Instant) : Network × Reaction :=
  let (cue, rest) := nextCue n.script.sockets
  let n := { n.note now .opened with script := { n.script with sockets := rest } }
  match cue.ending with
  | .succeeds none => (n, .answered (.socket (.ok ())))
  | .notConnected => (n, .answered (.socket (.error .notConnected)))
  | _ => (n, .answered (.socket (.error (.system "too many open files"))))

/-- What the network answers at a moment.  `called` says that all was called off. -/
def attend (n : Network) (now : Instant) (called : Bool) : LinkWant → Network × Reaction
  | .socket => n.attendSocket now
  | .pick among =>
    let (a, random) := among.choose n.random
    ({ n with random }, .answered (.picked a))
  | .call c limit => n.attendCall now called c limit
  | .rest d => n.attendRest now called d
  | .close => (n.note now .closed, .answered .closed)
  | .nothing => (n, .waits)

/-- What was under way is given up without anyone asking for it. -/
def forget (n : Network) : Network := { n with pending := none }

/-- The earlier of two times, if there are any. -/
def earlier : Option Instant → Option Instant → Option Instant
  | some s, some t => some (min s t)
  | some s, none => some s
  | none, t => t

/-- When the network has something to answer next. -/
def wake? (n : Network) : Option Instant :=
  match n.pending with
  | none => none
  | some (.rest t) => some t
  | some (.call due _ deadline) => earlier due (some deadline)

/-- What was asked since the last time, the first one first. -/
def takeDeeds (n : Network) : List (Instant × Deed) × Network := (n.deeds.reverse, { n with deeds := [] })

/-- The next octets of the random source. -/
def draw (n : Network) (count : Nat) : Bytes × Network :=
  let (bs, random) := n.random.draw count
  (bs, { n with random })

end Network

end LogRelay.Rehearsal
