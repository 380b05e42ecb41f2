import LogRelay.Program
import Std.Time.DateTime.Timestamp

/-!
# The command line

`main` runs the program on the variables, the standard input and the clock of the process, and writes what it
shows to standard error.  Lines are read in the background, so that the relay goes on while none come.
-/

namespace LogRelay.CommandLine

/-- How long the program rests when there is nothing to do, in milliseconds. -/
def rest : UInt32 := 5

/-- Fresh random octets for the next steps. -/
def reseed (p : Program) : IO Program := do
  let bytes ← IO.getRandomBytes 4096
  let network := { p.bench.network with random := ⟨bytes.toList, 0⟩ }
  return { p with bench := { p.bench with network } }

/-- Shows what a step shows. -/
def tell (s : Program.Shown) : IO Program := do
  for line in s.1 do
    IO.eprintln line
  return s.2

/-- Reads octets until they complete a line or the input ends; gives the line, if there is one. -/
partial def readLine (stdin : IO.FS.Stream) (reader : InputLines.Reader) : IO (Option Bytes) := do
  match (← stdin.read 1).toList with
  | [] => return reader.rest?
  | octet :: _ =>
    match reader.push octet with
    | (some line, _) => return some line
    | (none, reader) => readLine stdin reader

/-- What is known of the standard input. -/
structure Input where
  pending : Option (Task (Except IO.Error (Option Bytes)))
  /-- The line that is still to be handed in. -/
  waiting : Option Bytes := none
  /-- Why nothing more can be read, if that was a fault. -/
  fault : Option String := none

/-- Begins to read the next line. -/
def Input.begin : IO Input := do
  let stdin ← IO.getStdin
  return { pending := some (← IO.asTask (readLine stdin {})) }

/-- The wording of a fault of the system. -/
def wording : IO.Error → String
  | .inappropriateType _ 21 _ => "Is a directory (os error 21)"
  | e => e.toString

/-- Looks whether a line has come. -/
def Input.poll (i : Input) : IO Input := do
  match i.pending, i.waiting with
  | some task, none =>
    if ← IO.hasFinished task then
      match task.get with
      | .ok line => return { pending := none, waiting := line }
      | .error e => return { pending := none, fault := some (wording e) }
    else return i
  | _, _ => return i

/-- Whether nothing more will come. -/
def Input.isOver (i : Input) : Bool := i.pending.isNone && i.waiting.isNone

/-- The time in milliseconds since 1970. -/
def sinceEpoch : IO Nat := do
  let t ← Std.Time.Timestamp.now
  return t.toMillisecondsSinceUnixEpoch.toInt.toNat

/-- Hands in the line that waits, if there is room, and reads on. -/
def handIn (p : Program) (input : Input) : IO (Program × Input) := do
  match p.phase, input.waiting with
  | .reading, some line =>
    match (← reseed p).read (← sinceEpoch) line with
    | .waits => return (p, input)
    | .goesOn shown => return (← tell shown, ← Input.begin)
  | _, _ => return (p, input)

/-- Goes on until the program exits. -/
partial def loop (began : Nat) (p : Program) (input : Input) : IO UInt32 := do
  let p ← tell ((← reseed p).wait ((← IO.monoNanosNow) - began))
  let arrived ← input.poll
  let (p, input) ← handIn p arrived
  let p ← if p.phase == .reading && input.isOver then
      tell (p.inputOver (input.fault.toList.map ProgramNotice.inputFailed))
    else pure p
  match p.exitCode? with
  | some (lines, code) =>
    discard (tell (lines, p))
    return UInt32.ofNat code
  | none =>
    if input.waiting.isSome || arrived.waiting.isNone then IO.sleep rest
    loop began p input

/-- The variables that the program looks at. -/
def environment : IO (List (String × String)) := do
  let mut found := []
  for name in Settings.variableNames do
    if let some value ← IO.getEnv name then
      found := (name, value) :: found
  return found

/-- Runs the program. -/
def run : IO UInt32 := do
  let found ← environment
  let random ← IO.getRandomBytes 4096
  match Program.start (fun name => found.lookup name) ⟨random.toList, 0⟩ with
  | (lines, .error code) =>
    for line in lines do
      IO.eprintln line
    return UInt32.ofNat code
  | (lines, .ok p) =>
    let p ← tell (lines, p)
    loop (← IO.monoNanosNow) p (← Input.begin)

end LogRelay.CommandLine

/-- The program. -/
def main : IO UInt32 := LogRelay.CommandLine.run
