import LogRelay.Proofs.InputLines
import LogRelay.Proofs.Relay.Flow

/-!
# Taking up an input again

A relay whose only producer reads an input gets an event for each line.  The input comes bit by bit, a
line is handed in when the queue has room, and reading may end early, for whatever reason.  A `Fed` relay
is such a relay with its reader.

* `Fed.move?`, `Fed.run?`: steps and runs, in any order that is possible;
* `Fed.Reads`, `reads_run?`: what was handed in, what waits, and what is still to come are the input;
* `Fed.resumes`: **the ledger's position of the input is where its next line begins**, and reading from
  there gives the lines behind it, no more and no less.
-/

namespace LogRelay

open InputLines

/-- A relay whose only producer reads an input. -/
structure Fed where
  watched : Watched
  unread : Bytes
  reading : Reading := .goesOn
  reader : Reader := {}
  /-- The lines that have come and were not handed in. -/
  waiting : List Bytes := []
  place : Place := {}
  /-- The lines that were handed in, the first one first. -/
  handed : List Bytes := []

/-- A step of a relay, or of the reading of its input: some octets come, once no line waits; the input ends; a
line is handed in; or reading is given up. -/
inductive Fed.Step where
  | relay (m : Move)
  | come (n : Nat)
  | finish
  | hand (now : Nat)
  | giveUp

/-- Whether an event is handed in with a step of a relay. -/
def Move.isAccept : Move → Bool
  | accept _ => true
  | _ => false

namespace Fed

def start (capacities : Capacities) (settings : BatcherSettings) (keys : Keys) (l : Link) (now : Instant)
    (input : Bytes) : Fed where
  watched := Watched.start capacities settings keys l now
  unread := input

/-- What comes of a step, if it is possible. -/
def move? (f : Fed) : Step → Option Fed
  | .relay m =>
    if m.isAccept then none else (f.watched.move? m).map fun watched => { f with watched }
  | .come n =>
    if f.reading = .goesOn ∧ f.waiting = [] then
      let (waiting, reader) := f.reader.add (f.unread.take n)
      some { f with unread := f.unread.drop n, waiting, reader }
    else none
  | .finish =>
    if f.reading = .goesOn ∧ f.waiting = [] ∧ f.unread = [] then
      some { f with reading := .atEnd, waiting := f.reader.rest?.toList }
    else none
  | .hand now =>
    match f.waiting with
    | [] => none
    | line :: waiting =>
      let place := f.place.after line
      (f.watched.move? (.accept (event now place line))).map fun watched =>
        { f with watched, waiting, place, handed := f.handed ++ [line] }
  | .giveUp => some { f with reading := .givenUp, waiting := [] }

/-- What comes of several steps, if each is possible. -/
abbrev run? : Fed → List Step → Option Fed := runSteps move?

/-- All lines of the input were handed in. -/
def HasReadAll (f : Fed) : Prop := f.reading = .atEnd ∧ f.waiting = []

/-! ### What was handed in -/

/-- The lines that were handed in, those that wait, and those that are still to come are the input; and
those that were handed in are what the relay has accepted. -/
structure Reads (input : Bytes) (f : Fed) : Prop where
  flow : f.watched.Flow
  accepted : f.watched.passage.accepted.map Event.untimed = eventsFrom 0 {} f.handed
  place : f.place = Place.afterAll {} f.handed
  lines : ∃ rest, segments input = f.handed ++ f.waiting ++ rest ∧
    match f.reading with
    | .goesOn => newline ∉ f.reader.started ∧ rest = segments (f.reader.started.reverse ++ f.unread)
    | .atEnd => rest = []
    | .givenUp => True

variable {f f' : Fed} {input : Bytes}

theorem reads_start (capacities : Capacities) (settings : BatcherSettings) (keys : Keys) (l : Link)
    (now : Instant) (input : Bytes) : (start capacities settings keys l now input).Reads input where
  flow := Watched.flow_start capacities settings keys l now
  accepted := rfl
  place := rfl
  lines := ⟨segments input, rfl, by simp [start], rfl⟩

/-- What a step of the relay adds to what it has accepted. -/
theorem accepted_move? {w w' : Watched} {m : Move} (h : w.move? m = some w') :
    w'.passage.accepted = w.passage.accepted ++ (w.relay.passing m).accepted := by
  obtain ⟨notices, -, hp⟩ := Watched.exists_of_move? h
  rw [hp, Passage.accepted_append]

theorem accepted_passing {r : Relay} {m : Move} (h : m.isAccept = false) : (r.passing m).accepted = [] := by
  cases m with
  | accept e => exact absurd h (by simp [Move.isAccept])
  | stage s =>
    cases s with
    | batcher =>
      rw [Relay.passing]
      split <;> rfl
    | courier | ledger => rfl
  | link a =>
    rw [Relay.passing]
    split <;> rfl
  | _ => rfl

theorem Reads.relay {m : Move} (h : f.Reads input) (hm : f.move? (.relay m) = some f') :
    f'.Reads input := by
  rw [move?] at hm
  split at hm
  · exact absurd hm (by simp)
  next hno =>
    obtain ⟨watched, hw, rfl⟩ := Option.map_eq_some_iff.1 hm
    refine ⟨Watched.flow_move? h.flow hw, ?_, h.place, h.lines⟩
    have hsame : watched.passage.accepted = f.watched.passage.accepted := by
      rw [accepted_move? hw, accepted_passing (by simpa using hno), List.append_nil]
    rw [hsame]
    exact h.accepted

theorem Reads.come {n : Nat} (h : f.Reads input) (hm : f.move? (.come n) = some f') :
    f'.Reads input := by
  rw [move?] at hm
  split at hm
  next hgo =>
    obtain rfl := Option.some.inj hm
    obtain ⟨rest, hlines, hrest⟩ := h.lines
    rw [hgo.1] at hrest
    obtain ⟨hstarted, rfl⟩ := hrest
    refine ⟨h.flow, h.accepted, h.place,
      segments ((f.reader.add (f.unread.take n)).2.started.reverse ++ f.unread.drop n), ?_, ?_⟩
    · rw [hlines, hgo.2, List.append_nil, List.append_assoc]
      congr 1
      rw [← Reader.segments_add _ _ _ hstarted, List.take_append_drop]
    · simp only [hgo.1]
      exact ⟨Reader.newline_notMem_add _ _ hstarted, trivial⟩
  next => exact absurd hm (by simp)

theorem Reads.finish (h : f.Reads input) (hm : f.move? .finish = some f') : f'.Reads input := by
  rw [move?] at hm
  split at hm
  next hgo =>
    obtain ⟨hreading, hwaiting, hunread⟩ := hgo
    obtain rfl := Option.some.inj hm
    obtain ⟨rest, hlines, hrest⟩ := h.lines
    rw [hreading] at hrest
    obtain ⟨hstarted, rfl⟩ := hrest
    refine ⟨h.flow, h.accepted, h.place, [], ?_, rfl⟩
    rw [hlines, hwaiting, hunread, List.append_nil, List.append_nil, List.append_nil,
      f.reader.segments_rest hstarted]
  next => exact absurd hm (by simp)

theorem Reads.hand {now : Nat} (h : f.Reads input) (hm : f.move? (.hand now) = some f') :
    f'.Reads input := by
  rw [move?] at hm
  cases hwaiting : f.waiting with
  | nil =>
    rw [hwaiting] at hm
    exact absurd hm (by simp)
  | cons line waiting =>
    rw [hwaiting] at hm
    obtain ⟨watched, hw, rfl⟩ := Option.map_eq_some_iff.1 hm
    have hplace : f.place.after line = Place.afterAll {} (f.handed ++ [line]) := by
      rw [Place.afterAll, List.foldl_append, h.place]
      rfl
    refine ⟨Watched.flow_move? h.flow hw, ?_, hplace, ?_⟩
    · rw [accepted_move? hw, List.map_append, h.accepted, eventsFrom_append, ← h.place]
      rfl
    · obtain ⟨rest, hlines, hrest⟩ := h.lines
      refine ⟨rest, ?_, hrest⟩
      rw [hlines, hwaiting]
      simp only [List.append_assoc, List.cons_append, List.nil_append]

theorem Reads.giveUp (h : f.Reads input) (hm : f.move? .giveUp = some f') : f'.Reads input := by
  obtain rfl := Option.some.inj hm
  obtain ⟨rest, hlines, -⟩ := h.lines
  refine ⟨h.flow, h.accepted, h.place, f.waiting ++ rest, ?_, trivial⟩
  rw [hlines, List.append_nil, List.append_assoc]

/-- **Every step keeps it so.** -/
theorem reads_move? {d : Step} (h : f.Reads input) (hm : f.move? d = some f') : f'.Reads input := by
  cases d with
  | relay m => exact h.relay hm
  | come n => exact h.come hm
  | finish => exact h.finish hm
  | hand now => exact h.hand hm
  | giveUp => exact h.giveUp hm

theorem reads_run? {capacities : Capacities} {settings : BatcherSettings} {keys : Keys} {l : Link}
    {now : Instant} {ds : List Step}
    (h : (start capacities settings keys l now input).run? ds = some f) : f.Reads input :=
  runSteps_induction (fun _ _ _ hf hm => reads_move? hf hm) h (reads_start capacities settings keys l now input)

/-! ### What the ledger has recorded -/

/-- The events that are recorded are those of the first lines. -/
theorem Reads.recorded (h : f.Reads input) :
    ∃ before after, segments input = before ++ after ∧
      (f.watched.passage.recorded.flatMap Batch.events).map Event.untimed = eventsFrom 0 {} before := by
  have hflow := h.flow
  have hwithin : f.watched.passage.recorded.flatMap Batch.events <+: f.watched.passage.accepted :=
    ((hflow.recorded.within.flatMap _).trans (hflow.carried.within.flatMap _)).trans hflow.spooled.within
  obtain ⟨others, hothers⟩ := hwithin
  obtain ⟨rest, hlines, -⟩ := h.lines
  generalize f.watched.passage.recorded.flatMap Batch.events = recorded at hothers ⊢
  have haccepted := h.accepted
  rw [← hothers, List.map_append] at haccepted
  refine ⟨f.handed.take recorded.length, f.handed.drop recorded.length ++ f.waiting ++ rest, ?_, ?_⟩
  · rw [← List.append_assoc, ← List.append_assoc, List.take_append_drop, hlines]
  · have htake := congrArg (List.take recorded.length) haccepted
    rw [List.take_left' (List.length_map _)] at htake
    rw [htake]
    conv_lhs => rw [← List.take_append_drop recorded.length f.handed, eventsFrom_append]
    refine List.take_left' ?_
    rw [length_eventsFrom, List.length_take]
    have hlen := congrArg List.length haccepted
    simp only [List.length_append, List.length_map, length_eventsFrom] at hlen
    omega

/-- The positions do not depend on when lines were read. -/
theorem foldl_record_untimed (es : List Event) (m : Positions) :
    (es.map Event.untimed).foldl Positions.record m = es.foldl Positions.record m := by
  rw [List.foldl_map]
  rfl

/-- The position that the ledger has is the place behind the lines that are recorded. -/
theorem Reads.position {p : Position} (h : f.Reads input)
    (hp : f.watched.relay.positions.find? source = some p)
    (hfit : ((segments input).take p.events).flatten.length < 2 ^ 64) :
    ∃ before after, segments input = before ++ after ∧ before ≠ [] ∧
      p = (Place.afterAll {} before).position before.length ∧
      (f.watched.passage.recorded.flatMap Batch.events).map Event.untimed = eventsFrom 0 {} before := by
  obtain ⟨before, after, hlines, hrecorded⟩ := h.recorded
  rw [h.flow.positions_eq, ← foldl_record_untimed, hrecorded] at hp
  obtain ⟨hne, rfl⟩ := find?_record_eventsFrom hp
  refine ⟨before, after, hlines, hne, ?_, hrecorded⟩
  have hcount := Position.events_foldl_add {} (eventsFrom 0 {} before)
  rw [length_eventsFrom, Nat.zero_add] at hcount
  rw [hcount, hlines, List.take_left] at hfit
  have hposition : (eventsFrom 0 {} before).foldl Position.add {} = _ :=
    foldl_add_eventsFrom (p := {}) (n := 0) (by simpa using hfit)
  rwa [Nat.zero_add] at hposition

/-- What a relay accepts that reads an input from a later place on, as it would be counted from there. -/
theorem Reads.counted (h : f.Reads input) (q : Place) :
    let counted := f.watched.passage.accepted.map fun e =>
      (e.shifted (.ofNat q.offset) (.ofNat q.line)).untimed
    counted <+: eventsFrom 0 q (segments input) ∧
      (f.HasReadAll → counted = eventsFrom 0 q (segments input)) := by
  intro counted
  have hcounted : counted = eventsFrom 0 q f.handed := by
    have hshift := eventsFrom_shifted 0 {} q f.handed
    simp only [Nat.zero_add] at hshift
    rw [hshift, ← h.accepted, List.map_map]
    rfl
  obtain ⟨rest, hlines, hrest⟩ := h.lines
  rw [hcounted, hlines]
  refine ⟨?_, fun ⟨hend, hwaiting⟩ => ?_⟩
  · rw [List.append_assoc, eventsFrom_append]
    exact List.prefix_append _ _
  · rw [hend] at hrest
    rw [hwaiting, hrest, List.append_nil, List.append_nil]

/-- **Taking up an input again.**  Let the ledger have a position of the input, after any run.  It counts
some lines, at least one; they are the first lines of the input, and replies to all of them have come in.
Its offset is where they end.  Reading from there on gives the events of the other lines and no others,
in any run of another relay; and all of them, once that has handed in all lines.  (This holds as far as an
offset can count the octets of the lines.) -/
theorem resumes {capacities capacities' : Capacities} {settings settings' : BatcherSettings}
    {keys keys' : Keys} {l l' : Link} {now now' : Instant} {ds ds' : List Step} {p : Position}
    (h : (start capacities settings keys l now input).run? ds = some f)
    (hp : f.watched.relay.positions.find? source = some p)
    (hfit : ((segments input).take p.events).flatten.length < 2 ^ 64) :
    (1 ≤ p.events ∧ p.events ≤ (segments input).length ∧ p.line.toNat = p.events ∧
      p.offset.toNat = ((segments input).take p.events).flatten.length) ∧
    (∃ es, es <+: f.watched.passage.acknowledged.flatMap Batch.events ∧
      es.map Event.untimed = (events 0 input).take p.events) ∧
    ((start capacities' settings' keys' l' now' (input.drop p.offset.toNat)).run? ds' = some f' →
      let again := f'.watched.passage.accepted.map fun e => (e.shifted p.offset p.line).untimed
      again <+: (events 0 input).drop p.events ∧
        (f'.HasReadAll → again = (events 0 input).drop p.events)) := by
  have hreads := reads_run? h
  obtain ⟨before, after, hlines, hne, hposition, hrecorded⟩ := hreads.position hp hfit
  have hevents : p.events = before.length := by rw [hposition]; rfl
  have htake : (segments input).take p.events = before := by rw [hevents, hlines, List.take_left]
  rw [htake] at hfit ⊢
  -- no line is empty, so the lines can be counted if their octets can
  have hcount : before.length ≤ before.flatten.length :=
    length_le_flatten fun s hs => by
      have hmem : s ∈ segments input := by
        rw [hlines]
        exact List.mem_append_left _ hs
      exact segments_ne_nil hmem
  have hall : events 0 input = eventsFrom 0 {} before ++ eventsFrom 0 (Place.afterAll {} before) after := by
    rw [events, hlines, eventsFrom_append]
  have hplace : Place.afterAll {} before = ⟨before.flatten.length, before.length⟩ := by
    rw [Place.afterAll_eq, Nat.zero_add, Nat.zero_add]
  have hoffset : p.offset = .ofNat before.flatten.length := by rw [hposition, hplace]; rfl
  have hline : p.line = .ofNat before.length := by rw [hposition, hplace]; rfl
  have hoffset' : p.offset.toNat = before.flatten.length := by
    rw [hoffset, UInt64.toNat_ofNat_of_lt' hfit]
  refine ⟨⟨?_, ?_, ?_, hoffset'⟩, ⟨_, hreads.flow.recorded.within.flatMap _, ?_⟩, fun h' => ?_⟩
  · rw [hevents]
    exact List.length_pos_iff.2 hne
  · rw [hevents, hlines, List.length_append]
    omega
  · rw [hline, hevents, UInt64.toNat_ofNat_of_lt' (lt_of_le_of_lt hcount hfit)]
  · rw [hrecorded, hall, List.take_left' (by rw [length_eventsFrom, hevents])]
  · rw [hoffset', drop_flatten hlines] at h'
    have hcounted := (reads_run? h').counted (Place.afterAll {} before)
    rw [segments_flatten hlines, hplace, ← hoffset, ← hline, ← hplace] at hcounted
    rw [hall, List.drop_left' (by rw [length_eventsFrom, hevents])]
    exact hcounted

/-! ### An input that is taken up again -/

/-- A relay that makes a batch of every line of an input. -/
def lineByLine (input : Bytes) : Fed := start {} { size := 1 } ⟨.zero, .zero⟩ Watched.oneCollector 0 input

/-- Two lines and the beginning of a third. -/
def threeLines : Bytes := [97, 10, 98, 13, 10, 99]

/-- The relay delivers one line. -/
def deliverLine : List Move :=
  [.stage .batcher, .stage .batcher] ++ Watched.takeBatch ++ Watched.connect ++ Watched.exchange ++
    Watched.recordBatch

/-- The first line is recorded, and the second is handed in, when reading is given up. -/
def firstRecorded : List Step :=
  [.come 4, .hand 5] ++ deliverLine.map .relay ++ [.come 2, .hand 6, .giveUp]

/-- All that is left is handed in. -/
def othersRead : List Step := [.come 1, .come 9, .hand 7, .finish, .hand 8]

theorem resumes_behindFirst : ∃ f f', (lineByLine threeLines).run? firstRecorded = some f ∧
    f.watched.relay.positions.find? source = some ⟨2, 1, 1⟩ ∧
    (lineByLine (threeLines.drop 2)).run? othersRead = some f' ∧ f'.HasReadAll ∧
    f'.watched.passage.accepted.map (fun e => (e.shifted 2 1).untimed) = (events 0 threeLines).drop 1 := by
  obtain ⟨f, hf⟩ : ∃ f, (lineByLine threeLines).run? firstRecorded = some f := Option.isSome_iff_exists.1 rfl
  obtain ⟨f', hf'⟩ : ∃ f', (lineByLine (threeLines.drop 2)).run? othersRead = some f' :=
    Option.isSome_iff_exists.1 rfl
  have hp : ((lineByLine threeLines).run? firstRecorded).map
      (fun f => f.watched.relay.positions.find? source) = some (some ⟨2, 1, 1⟩) := rfl
  have hread : ((lineByLine (threeLines.drop 2)).run? othersRead).map (fun f => (f.reading, f.waiting))
      = some (.atEnd, []) := rfl
  rw [hf] at hp
  rw [hf'] at hread
  have hp : f.watched.relay.positions.find? source = some ⟨2, 1, 1⟩ := Option.some.inj hp
  obtain ⟨hend, hwaiting⟩ := Prod.mk.inj (Option.some.inj hread)
  have hagain := (resumes hf hp (by decide)).2.2 hf'
  exact ⟨f, f', hf, hp, hf', ⟨hend, hwaiting⟩, hagain.2 ⟨hend, hwaiting⟩⟩

end Fed

end LogRelay
