import LogRelay.InputLines
import LogRelay.Journal.Filter
import LogRelay.Messaging
import LogRelay.Rehearsal.Bench
import LogRelay.Settings.Variables

/-!
# The program

The program is told by variables what to do, starts a relay, and hands in the lines of its input one by one.
When the input has ended it waits for the relay to deliver what it has; when it is interrupted it calls the
relay off.  Its network is one on which no collector can be reached.

Each step gives the lines that it shows and the program after it.

* `Program.start`: the program as its variables have it, or the code with which it exits at once;
* `Program.read`, `Program.inputOver`: a line, and the end of the input;
* `Program.interrupt`, `Program.wait`: an interruption, and time that passes;
* `Program.exitCode?`: the code with which it exits.
-/

namespace LogRelay

/-- What the program itself says. -/
inductive ProgramNotice where
  | logging
  | invalidSettings (cause : SettingsFault)
  | noRelay (cause : RelayFault)
  | forwarding (servers : Nat)
  | inputFailed (reason : String)
  /-- The relay takes no more lines. -/
  | refused
  | linesRead (n : Nat)
  | draining
  | shutdown
  | failed (cause : RelayFault)

def ProgramNotice.record : ProgramNotice → Journal.Record
  | logging => Journal.say .debug "Logging subsystem enabled"
  | invalidSettings cause => Journal.say .error ("Invalid configuration: " ++ cause.message)
  | noRelay cause => Journal.say .error ("Unable to create forwarder: " ++ cause.message)
  | forwarding servers => Journal.say .info s!"Forwarding standard input to {servers} servers"
  | inputFailed reason => Journal.say .error ("Failed to read input: " ++ reason)
  | refused => Journal.say .debug "Forwarder no longer accepting events"
  | linesRead n => Journal.say .debug s!"Read {n} lines"
  | draining => Journal.say .debug "Standard input closed, draining"
  | shutdown => Journal.say .info "Shutdown requested"
  | failed cause => Journal.say .error ("Forwarder failed: " ++ cause.message)

/-- Who says something, as a filter names it. -/
inductive Origin where
  | program
  | addresses
  | other
deriving DecidableEq, Repr

def Origin.name : Origin → String
  | program => "lumberjack_forwarder"
  | addresses => "lumberjack::endpoint"
  | other => "lumberjack"

/-- How far the program has come. -/
inductive ProgramPhase where
  | reading
  | draining
deriving DecidableEq, Repr

/-- The program at work. -/
structure Program where
  filter : Journal.Filter
  bench : Rehearsal.Bench
  phase : ProgramPhase := .reading
  place : InputLines.Place := {}

namespace Program

open Rehearsal

/-- The lines that a filter lets through. -/
def shown (f : Journal.Filter) (o : Origin) (records : List Journal.Record) : List String :=
  (records.filter (f.allows o.name)).map (Journal.line [])

/-- The lines of what the program itself says. -/
def say (f : Journal.Filter) (notices : List ProgramNotice) : List String :=
  shown f .program (notices.map ProgramNotice.record)

/-- What a step shows, and the program after it. -/
abbrev Shown := List String × Program

/-- The program after its relay has moved. -/
def hear (p : Program) (said : Said) : Shown :=
  (shown p.filter .other (said.notices.reverse.map RelayNotice.record), { p with bench := said.bench })

/-- Everything in the relay goes on until it has to wait. -/
def settle (p : Program) : Shown := p.hear p.bench.settled

/-- First one step, then another. -/
def andThen (s : Shown) (f : Program → Shown) : Shown :=
  let (lines, p) := f s.2
  (s.1 ++ lines, p)

/-! ### Starting -/

/-- A network on which no collector can be reached. -/
def network (r : Random) : Network where
  script := { fate := fun a => some (((reachFault? a).map Ending.failsWith).getD .hangs) }
  random := r

/-- What is said while addresses are read that lead to a fault. -/
def addressRecords : SettingsFault → List Journal.Record
  | .address f => f.records
  | _ => []

/-- The relay of settings, its keys drawn if they have to be. -/
def relay (s : Settings) (r : Random) : Except SettingsFault (Relay × Random) := do
  let (plan, r) ← s.plan r
  let link ← (Link.ofSettings plan.link).mapError fun _ => .missingKind
  return (Relay.start {} plan.batcher plan.keys link 0, r)

/-- The records about the keys of settings. -/
def keyRecords (s : Settings) : List Journal.Record :=
  match s.theirPublicKey with
  | some their => Keys.records their s.mySecretKey
  | none => []

/-- The exit code of a failure. -/
def failureCode : Nat := 1

/-- The program as its variables have it, with what it shows at first, or the code with which it exits. -/
def start (look : Settings.Lookup) (r : Random) : List String × Except Nat Program :=
  let f := Journal.Filter.ofSetting (look "LUMBERJACK_LOG_LEVEL")
  let lines := say f [.logging]
  match Settings.ofVariables look with
  | .error cause =>
    (lines ++ shown f .addresses (addressRecords cause) ++ say f [.invalidSettings cause],
      .error failureCode)
  | .ok s =>
    match relay s r with
    | .error cause => (lines ++ say f [.noRelay (.settings cause)], .error failureCode)
    | .ok (relay, r) =>
      let said := Bench.launch s.spoolSize relay (network r)
      let (relayLines, p) := hear ⟨f, said.bench, .reading, {}⟩ said
      (lines ++ shown f .other (keyRecords s) ++ relayLines ++ say f [.forwarding s.servers.length],
        .ok p)

/-! ### The input -/

/-- The producers' ends go: the one that hands in lines, and the relay's own. -/
def releaseProducers (p : Program) : Program :=
  { p with bench := (p.bench.letGo.move .dropProducer).bench, phase := .draining }

/-- The input has come to its end, after some words about why. -/
def inputOver (p : Program) (why : List ProgramNotice) : Shown :=
  (say p.filter (why ++ [.linesRead p.place.line, .draining]), p.releaseProducers)

/-- What comes of handing in a line. -/
inductive Reading where
  | waits
  | goesOn (s : Shown)

/-- Hands in a line, read at `now`, in milliseconds since 1970. -/
def read (p : Program) (now : Nat) (segment : Bytes) : Reading :=
  let place := p.place.after segment
  match p.bench.handIn (InputLines.event now place segment) with
  | (.ok, bench) => .goesOn { p with bench, place }.settle
  | (.full, _) => .waits
  | (.closed, _) | (.noSender, _) => .goesOn ({ p with place }.inputOver [.refused])

/-! ### Interruptions and time -/

def interrupt (p : Program) : Shown :=
  let stopped := (p.bench.move .stop).bench
  match p.phase with
  | .reading => (say p.filter [.shutdown], { p with bench := stopped }.releaseProducers)
  | .draining => p.hear ⟨[.shutdownWhileDraining], stopped⟩

/-- Time has passed: it is `now`, counted since the start. -/
def wait (p : Program) (now : Instant) : Shown := { p with bench := p.bench.setClock now }.settle

/-- What the relay has come to, once the program waits for that. -/
def outcome? (p : Program) : Option (Except RelayFault Unit) :=
  match p.phase with
  | .reading => none
  | .draining => p.bench.relay.result?

/-- The code with which the program exits, and what it shows at last. -/
def exitCode? (p : Program) : Option (List String × Nat) :=
  p.outcome?.map fun
    | .ok () => ([], 0)
    | .error cause => (say p.filter [.failed cause], failureCode)

end Program

end LogRelay
