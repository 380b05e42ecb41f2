import LogRelay.Program

/-!
# Rehearsing the program

A trial is the program with an input and someone who watches what it shows.  The program may be interrupted some
time after a certain line, and the trial is broken off when it takes too long.

* `Trial.run`: what the program shows, and how it exits.
-/

namespace LogRelay.Rehearsal

/-- What the program is given. -/
structure Trial where
  look : Settings.Lookup
  random : Random := {}
  input : Bytes := []
  /-- Why its input cannot be read, if so. -/
  unreadable : Option String := none
  keepsOpen : Bool := false
  /-- The text in a line after which it is interrupted. -/
  interruptAfter : Option String := none
  /-- How long after that line. -/
  interruptDelay : Duration := .ofMillis 100
  patience : Duration := .ofMillis 10000

/-- What came of a trial: the lines it showed, and its exit code unless it was broken off. -/
structure TrialResult where
  lines : List String
  exit : Option Nat
deriving DecidableEq, Repr

namespace Trial

/-- Whether a text occurs in another. -/
def occurs (part : List Char) : List Char → Bool
  | [] => part.isEmpty
  | c :: cs => part.isPrefixOf (c :: cs) || occurs part cs

/-- A trial under way. -/
structure Progress where
  program : Program
  segments : List Bytes
  /-- The lines shown, the latest first. -/
  shown : List String := []
  /-- Whether the line after which it is interrupted is still to come. -/
  watching : Bool := true
  interruptAt : Option Instant := none

/-- The time. -/
def Progress.now (g : Progress) : Instant := g.program.bench.relay.now

/-- The program has shown lines and gone on. -/
def note (trial : Trial) (g : Progress) (s : Program.Shown) : Progress :=
  let (lines, program) := s
  let g := { g with program, shown := lines.reverse ++ g.shown }
  match trial.interruptAfter with
  | some text =>
    if g.watching && lines.any fun l => occurs text.toList l.toList then
      { g with watching := false, interruptAt := some (g.now + trial.interruptDelay.nanos) }
    else g
  | none => g

/-- The program goes on with its input, if it can. -/
def feed? (trial : Trial) (g : Progress) : Option Progress :=
  match g.program.phase, g.segments with
  | .draining, _ => none
  | .reading, s :: rest =>
    match g.program.read 0 s with
    | .goesOn shown => some (trial.note { g with segments := rest } shown)
    | .waits => none
  | .reading, [] =>
    match trial.unreadable with
    | some reason => some (trial.note g (g.program.inputOver [.inputFailed reason]))
    | none => if trial.keepsOpen then none else some (trial.note g (g.program.inputOver []))

/-- The clock is set and the program goes on; it is interrupted if that is due. -/
def pass (trial : Trial) (g : Progress) (now : Instant) : Progress :=
  let g := trial.note g (g.program.wait now)
  match g.interruptAt with
  | some due => if due ≤ now then trial.note { g with interruptAt := none } g.program.interrupt else g
  | none => g

/-- Goes on until the program exits or has taken too long. -/
def proceed (trial : Trial) : (fuel : Nat) → Progress → TrialResult
  | 0, g => ⟨g.shown.reverse, none⟩
  | fuel + 1, g =>
    let g := trial.note g g.program.settle
    match trial.feed? g with
    | some g => proceed trial fuel g
    | none =>
      match g.program.exitCode? with
      | some (lines, code) => ⟨g.shown.reverse ++ lines, some code⟩
      | none =>
        match Network.earlier g.program.bench.wake? g.interruptAt with
        | none => ⟨g.shown.reverse, none⟩
        | some t =>
          if trial.patience.nanos ≤ t then ⟨g.shown.reverse, none⟩
          else proceed trial fuel (trial.pass g (max t g.now))

/-- What comes of a trial. -/
def run (trial : Trial) : TrialResult :=
  match Program.start trial.look trial.random with
  | (lines, .error code) => ⟨lines, some code⟩
  | (lines, .ok program) =>
    let segments := match trial.unreadable with
      | some _ => []
      -- as long as an input stays open, nobody knows that its last line has no end
      | none => if trial.keepsOpen then (InputLines.Reader.add {} trial.input).1 else InputLines.segments trial.input
    trial.proceed Rehearsal.patience (trial.note ⟨program, segments, [], true, none⟩ (lines, program))

end Trial

end LogRelay.Rehearsal
