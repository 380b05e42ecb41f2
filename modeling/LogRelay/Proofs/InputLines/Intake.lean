import LogRelay.Program
import LogRelay.Proofs.InputLines.Texts
import LogRelay.Proofs.Queue
import LogRelay.Proofs.Runs

/-!
# Reading lines into a queue

An input comes bit by bit.  Each of its lines becomes an event when it is complete, and the rest when the input
has ended; the event is handed to a queue once that has room.  On the other side somebody takes events out, or
leaves.

* `Intake.move?`: what can happen, in any order that is possible, and `of_move?_hand` and its like: what then
  has come of it;
* `Intake.read_of_move?_hand`: the program hands in the lines of its input in this way;
* `Intake.Reads`, `reads_move?`: what the queue has accepted and what is still ahead are the input;
* `Intake.left`, `left_move?`: every step leaves less to do;
* `Intake.reads_lines`: **the events of an input do not depend on how it comes**, and are those of the lines of
  its text.
-/

namespace LogRelay

open InputLines

/-- An input that is read into a queue. -/
structure Intake where
  unread : Bytes
  reading : Reading := .goesOn
  reader : Reader := {}
  /-- The lines that have come and were not handed in. -/
  waiting : List Bytes := []
  place : Place := {}
  queue : Queue Event
  /-- The events that the queue has accepted, the first one first. -/
  accepted : List Event := []
  /-- The events that were taken out of the queue, the first one first. -/
  taken : List Event := []

/-- What can happen: some octets come, once no line waits; the input ends; a line is handed in, be it to nobody;
an event is taken out; or whoever takes them leaves. -/
inductive Intake.Step where
  | come (n : Nat)
  | finish
  | hand (now : Nat)
  | take
  | leave
deriving DecidableEq

namespace Intake

/-- Nothing was read of an input. -/
def start (capacity : Nat) (input : Bytes) : Intake where
  unread := input
  queue := { capacity }

/-- What comes of a step, if it is possible.  A line that nobody wants is counted, and is the last one. -/
def move? (i : Intake) : Step → Option Intake
  | .come n =>
    if i.reading = .goesOn ∧ i.waiting = [] ∧ 0 < n ∧ n ≤ i.unread.length then
      let (waiting, reader) := i.reader.add (i.unread.take n)
      some { i with unread := i.unread.drop n, waiting, reader }
    else none
  | .finish =>
    if i.reading = .goesOn ∧ i.waiting = [] ∧ i.unread = [] then
      some { i with reading := .atEnd, waiting := i.reader.rest?.toList }
    else none
  | .hand now =>
    match i.waiting with
    | [] => none
    | line :: waiting =>
      let place := i.place.after line
      let e := event now place line
      match i.queue.send e with
      | .accepted queue => some { i with queue, waiting, place, accepted := i.accepted ++ [e] }
      | .full => none
      | .closed => some { i with reading := .givenUp, waiting := [], place }
  | .take =>
    match i.queue.receive with
    | .item e queue => some { i with queue, taken := i.taken ++ [e] }
    | .empty | .finished => none
  | .leave => if i.queue.receiving then some { i with queue := i.queue.dropReceiver } else none

/-- All lines of the input were handed in. -/
def HasReadAll (i : Intake) : Prop := i.reading = .atEnd ∧ i.waiting = []

/-! ### One step -/

section

variable {i i' : Intake}

theorem of_move?_come {n : Nat} (h : i.move? (.come n) = some i') :
    i.reading = .goesOn ∧ i.waiting = [] ∧ 0 < n ∧ n ≤ i.unread.length ∧
      i' = { i with
        unread := i.unread.drop n
        waiting := (i.reader.add (i.unread.take n)).1
        reader := (i.reader.add (i.unread.take n)).2 } := by
  rw [move?] at h
  split at h
  next hgo =>
    obtain ⟨hreading, hwaiting, hpos, hle⟩ := hgo
    exact ⟨hreading, hwaiting, hpos, hle, (Option.some.inj h).symm⟩
  next => exact absurd h (by simp)

theorem of_move?_finish (h : i.move? .finish = some i') :
    i.reading = .goesOn ∧ i.waiting = [] ∧ i.unread = [] ∧
      i' = { i with reading := .atEnd, waiting := i.reader.rest?.toList } := by
  rw [move?] at h
  split at h
  next hgo =>
    obtain ⟨hreading, hwaiting, hunread⟩ := hgo
    exact ⟨hreading, hwaiting, hunread, (Option.some.inj h).symm⟩
  next => exact absurd h (by simp)

/-- A line is accepted, or there is nobody to accept it. -/
theorem of_move?_hand {now : Nat} (h : i.move? (.hand now) = some i') :
    ∃ line waiting, i.waiting = line :: waiting ∧
      ((i.queue.receiving = true ∧
        i' = { i with
          queue := { i.queue with items := i.queue.items ++ [event now (i.place.after line) line] }
          waiting
          place := i.place.after line
          accepted := i.accepted ++ [event now (i.place.after line) line] }) ∨
      (i.queue.receiving = false ∧
        i' = { i with reading := .givenUp, waiting := [], place := i.place.after line })) := by
  rw [move?] at h
  cases hwaiting : i.waiting with
  | nil =>
    rw [hwaiting] at h
    exact absurd h (by simp)
  | cons line waiting =>
    rw [hwaiting] at h
    refine ⟨line, waiting, rfl, ?_⟩
    cases hsend : i.queue.send (event now (i.place.after line) line) with
    | accepted queue =>
      simp only [hsend] at h
      obtain ⟨hreceiving, -, rfl⟩ := Queue.send_eq_accepted hsend
      exact .inl ⟨hreceiving, (Option.some.inj h).symm⟩
    | full =>
      simp only [hsend] at h
      exact absurd h (by simp)
    | closed =>
      simp only [hsend] at h
      exact .inr ⟨Queue.receiving_of_send_eq_closed hsend, (Option.some.inj h).symm⟩

theorem of_move?_take (h : i.move? .take = some i') :
    ∃ e rest, i.queue.items = e :: rest ∧
      i' = { i with queue := { i.queue with items := rest }, taken := i.taken ++ [e] } := by
  rw [move?] at h
  cases hreceive : i.queue.receive with
  | item e queue =>
    rw [hreceive] at h
    obtain ⟨rest, hitems, rfl⟩ := Queue.exists_of_receive hreceive
    exact ⟨e, rest, hitems, (Option.some.inj h).symm⟩
  | empty | finished =>
    rw [hreceive] at h
    exact absurd h (by simp)

theorem of_move?_leave (h : i.move? .leave = some i') :
    i.queue.receiving = true ∧ i' = { i with queue := i.queue.dropReceiver } := by
  rw [move?] at h
  split at h
  next hreceiving => exact ⟨hreceiving, (Option.some.inj h).symm⟩
  next => exact absurd h (by simp)

/-- The program hands in a line as it is done here, at the queue of its relay: it waits for room, counts the line,
and reads no more once nobody takes events. -/
theorem read_of_move?_hand {p : Program} {now : Nat} {line : Bytes} {waiting : List Bytes}
    (hwaiting : i.waiting = line :: waiting) (hplace : i.place = p.place)
    (hqueue : i.queue = p.bench.relay.events) (hholding : p.bench.holding = true) :
    match i.move? (.hand now) with
    | none => p.read now line = .waits
    | some i' => ∃ shown, p.read now line = .goesOn shown ∧ shown.2.place = i'.place ∧
        shown.2.phase = if i'.queue.receiving then p.phase else .draining := by
  rw [move?, hwaiting]
  simp only [Program.read, Rehearsal.Bench.handIn, hholding, ← hplace, ← hqueue]
  cases hsend : i.queue.send (event now (i.place.after line) line) with
  | accepted queue =>
    obtain ⟨hreceiving, -, rfl⟩ := Queue.send_eq_accepted hsend
    simp only [hreceiving]
    exact ⟨_, rfl, rfl, rfl⟩
  | full => rfl
  | closed =>
    simp only [Queue.receiving_of_send_eq_closed hsend]
    exact ⟨_, rfl, rfl, rfl⟩

end

/-! ### What was handed in -/

/-- The lines that are still to be handed in: those that wait, and those that have not come yet. -/
def ahead (i : Intake) : List Bytes :=
  i.waiting ++
    match i.reading with
    | .goesOn => segments (i.reader.started.reverse ++ i.unread)
    | .atEnd | .givenUp => []

/-- The events of the first lines were accepted, and the other lines are ahead, unless the receiver has left. -/
structure Reads (capacity : Nat) (input : Bytes) (i : Intake) : Prop where
  lines : ∃ handed rest, segments input = handed ++ rest ∧
    i.accepted.map Event.untimed = eventsFrom 0 {} handed ∧
    (i.reading ≠ .givenUp → rest = i.ahead ∧ i.place = Place.afterAll {} handed)
  started : newline ∉ i.reader.started
  givenUp : i.reading = .givenUp → i.waiting = [] ∧ i.queue.receiving = false
  taken : i.taken <+: i.accepted
  present : i.queue.receiving = true → i.accepted = i.taken ++ i.queue.items
  absent : i.queue.receiving = false → i.queue.items = []
  capacity : i.queue.capacity = capacity

variable {i i' : Intake} {input : Bytes} {capacity : Nat}

theorem reads_start (capacity : Nat) (input : Bytes) : (start capacity input).Reads capacity input where
  lines := ⟨[], segments input, rfl, rfl, fun _ => ⟨rfl, rfl⟩⟩
  started := by simp [start]
  givenUp := fun h => absurd h (by simp [start])
  taken := List.prefix_rfl
  present := fun _ => rfl
  absent := fun h => absurd h (by simp [start])
  capacity := rfl

/-- Octets that come bring lines that were ahead. -/
theorem ahead_come {n : Nat} (h : newline ∉ i.reader.started) (hm : i.move? (.come n) = some i') :
    i'.ahead = i.ahead := by
  obtain ⟨hreading, hwaiting, -, -, rfl⟩ := of_move?_come hm
  have hadd := i.reader.segments_add (i.unread.take n) (i.unread.drop n) h
  rw [List.take_append_drop] at hadd
  simp only [ahead, hreading, hwaiting, List.nil_append]
  exact hadd.symm

theorem ahead_finish (h : newline ∉ i.reader.started) (hm : i.move? .finish = some i') :
    i'.ahead = i.ahead := by
  obtain ⟨hreading, hwaiting, hunread, rfl⟩ := of_move?_finish hm
  simp only [ahead, hreading, hwaiting, hunread, List.nil_append, List.append_nil]
  exact (i.reader.segments_rest h).symm

theorem Reads.come {n : Nat} (h : i.Reads capacity input) (hm : i.move? (.come n) = some i') :
    i'.Reads capacity input := by
  have hahead := ahead_come h.started hm
  obtain ⟨hreading, -, -, -, rfl⟩ := of_move?_come hm
  obtain ⟨handed, rest, hlines, haccepted, hrest⟩ := h.lines
  refine ⟨⟨handed, rest, hlines, haccepted, fun hne => ?_⟩, Reader.newline_notMem_add _ _ h.started,
    fun hup => absurd (hreading.symm.trans hup) (by simp), h.taken, h.present, h.absent, h.capacity⟩
  rw [hahead]
  exact hrest hne

theorem Reads.finish (h : i.Reads capacity input) (hm : i.move? .finish = some i') :
    i'.Reads capacity input := by
  have hahead := ahead_finish h.started hm
  obtain ⟨hreading, -, -, rfl⟩ := of_move?_finish hm
  obtain ⟨handed, rest, hlines, haccepted, hrest⟩ := h.lines
  refine ⟨⟨handed, rest, hlines, haccepted, fun _ => ?_⟩, h.started, fun hup => absurd hup (by simp),
    h.taken, h.present, h.absent, h.capacity⟩
  rw [hahead]
  exact hrest (by simp [hreading])

theorem Reads.hand {now : Nat} (h : i.Reads capacity input) (hm : i.move? (.hand now) = some i') :
    i'.Reads capacity input := by
  obtain ⟨line, waiting, hwaiting, hcases⟩ := of_move?_hand hm
  have hgo : i.reading ≠ .givenUp := fun hup => absurd ((h.givenUp hup).1.symm.trans hwaiting) (by simp)
  obtain ⟨handed, rest, hlines, haccepted, hrest⟩ := h.lines
  obtain ⟨rfl, hplace⟩ := hrest hgo
  rcases hcases with ⟨hreceiving, rfl⟩ | ⟨hreceiving, rfl⟩
  · have hpresent := h.present hreceiving
    refine ⟨⟨handed ++ [line], _, ?_, ?_, fun _ => ⟨rfl, ?_⟩⟩, h.started, fun hup => absurd hup hgo,
      h.taken.trans (List.prefix_append _ _), fun _ => ?_,
      fun hgone => absurd (hreceiving.symm.trans hgone) (by simp), h.capacity⟩
    · rw [hlines, ahead, hwaiting, ahead]
      simp only [List.append_assoc, List.cons_append, List.nil_append]
    · rw [List.map_append, haccepted, eventsFrom_append, ← hplace]
      rfl
    · rw [Place.afterAll, List.foldl_append, hplace]
      rfl
    · rw [hpresent, List.append_assoc]
  · exact ⟨⟨handed, _, hlines, haccepted, fun hne => absurd rfl hne⟩, h.started,
      fun _ => ⟨rfl, hreceiving⟩, h.taken, h.present, h.absent, h.capacity⟩

theorem Reads.take (h : i.Reads capacity input) (hm : i.move? .take = some i') :
    i'.Reads capacity input := by
  obtain ⟨e, rest, hitems, rfl⟩ := of_move?_take hm
  have hreceiving : i.queue.receiving = true := by
    by_contra hgone
    rw [h.absent (by simpa using hgone)] at hitems
    exact absurd hitems (by simp)
  have hpresent : i.accepted = i.taken ++ [e] ++ rest := by
    rw [h.present hreceiving, hitems, List.append_assoc, List.singleton_append]
  exact ⟨h.lines, h.started, h.givenUp, hpresent ▸ List.prefix_append _ _, fun _ => hpresent,
    fun hgone => absurd (hreceiving.symm.trans hgone) (by simp), h.capacity⟩

theorem Reads.leave (h : i.Reads capacity input) (hm : i.move? .leave = some i') :
    i'.Reads capacity input := by
  obtain ⟨-, rfl⟩ := of_move?_leave hm
  exact ⟨h.lines, h.started, fun hup => ⟨(h.givenUp hup).1, rfl⟩, h.taken,
    fun hreceiving => absurd hreceiving (by simp [Queue.dropReceiver]), fun _ => rfl, h.capacity⟩

/-- **Every step keeps it so.** -/
theorem reads_move? {d : Step} (h : i.Reads capacity input) (hm : i.move? d = some i') :
    i'.Reads capacity input := by
  cases d with
  | come n => exact h.come hm
  | finish => exact h.finish hm
  | hand now => exact h.hand hm
  | take => exact h.take hm
  | leave => exact h.leave hm

theorem reads_run {ds : List Step} (h : runSteps move? (start capacity input) ds = some i) :
    i.Reads capacity input :=
  runSteps_induction (fun _ _ _ hi hm => reads_move? hi hm) h (reads_start capacity input)

/-! ### How long it takes -/

/-- What is left to do: a line is handed in and taken out again; besides, octets come, the input ends, and the
receiver leaves. -/
def left (i : Intake) : Nat :=
  2 * i.ahead.length + i.queue.items.length + i.unread.length +
    (if i.reading = .goesOn then 1 else 0) + if i.queue.receiving then 1 else 0

/-- **Every step leaves less to do.** -/
theorem left_move? {d : Step} (h : newline ∉ i.reader.started) (hm : i.move? d = some i') :
    i'.left < i.left := by
  cases d with
  | come n =>
    have hahead := ahead_come h hm
    obtain ⟨-, -, hpos, hle, rfl⟩ := of_move?_come hm
    simp only [left, hahead, List.length_drop]
    omega
  | finish =>
    have hahead := ahead_finish h hm
    obtain ⟨hreading, -, -, rfl⟩ := of_move?_finish hm
    simp only [left, hahead, hreading, if_true, reduceCtorEq, if_false]
    omega
  | hand now =>
    obtain ⟨line, waiting, hwaiting, ⟨-, rfl⟩ | ⟨-, rfl⟩⟩ := of_move?_hand hm
    · simp only [left, ahead, hwaiting, List.length_append, List.length_cons, List.length_nil]
      omega
    · simp only [left, ahead, hwaiting, List.length_append, List.length_cons, List.length_nil, reduceCtorEq,
        if_false]
      omega
  | take =>
    obtain ⟨e, rest, hitems, rfl⟩ := of_move?_take hm
    simp only [left, ahead, hitems, List.length_cons]
    omega
  | leave =>
    obtain ⟨hreceiving, rfl⟩ := of_move?_leave hm
    simp only [left, ahead, Queue.dropReceiver, hreceiving, List.length_nil, if_true, Bool.false_eq_true,
      if_false]
    omega

theorem left_start (capacity : Nat) (input : Bytes) :
    (start capacity input).left = 2 * (segments input).length + input.length + 2 := by
  simp [left, ahead, start]

/-! ### What comes of an input -/

/-- The events that are accepted are those of the first lines, and of all lines once all are handed in. -/
theorem Reads.accepted_events (h : i.Reads capacity input) :
    i.accepted.map Event.untimed <+: events 0 input ∧
      (i.HasReadAll → i.accepted.map Event.untimed = events 0 input) := by
  obtain ⟨handed, rest, hlines, haccepted, hrest⟩ := h.lines
  rw [haccepted, events, hlines, eventsFrom_append]
  refine ⟨List.prefix_append _ _, fun ⟨hend, hwaiting⟩ => ?_⟩
  have hnone : rest = [] := by
    rw [(hrest (by simp [hend])).1, ahead, hend, hwaiting]
    rfl
  rw [hnone, eventsFrom, List.append_nil]

theorem Reads.isLine (h : i.Reads capacity input) {k : Nat} {e : Event} (he : i.accepted[k]? = some e) :
    IsLine (segments input) ((segments input).map Utf8.decodeLossy) k e := by
  have hevent : (events 0 input)[k]? = some e.untimed := by
    obtain ⟨others, hothers⟩ := h.accepted_events.1
    have hmap : (i.accepted.map Event.untimed)[k]? = some e.untimed := by
      rw [List.getElem?_map, he]
      rfl
    rw [← hothers, List.getElem?_append_left (List.getElem?_eq_some_iff.1 hmap).1, hmap]
  have hk : k < (segments input).length := by
    have hlt := (List.getElem?_eq_some_iff.1 hevent).1
    rwa [events, length_eventsFrom] at hlt
  have hline : (segments input)[k]? = some (segments input)[k] := List.getElem?_eq_getElem hk
  rw [events, getElem?_eventsFrom hline] at hevent
  exact isLine_of_untimed (Option.some.inj hevent ▸ isLine_event 0 hline)

/-- As long as somebody takes events out, reading goes on up to the end. -/
theorem Reads.goesOn (hcapacity : 0 < capacity) (h : i.Reads capacity input)
    (hreceiving : i.queue.receiving = true) :
    i.HasReadAll ∨ ∃ d : Step, d ≠ .leave ∧ (i.move? d).isSome = true := by
  cases hwaiting : i.waiting with
  | cons line waiting =>
    right
    cases hsend : i.queue.send (event 0 (i.place.after line) line) with
    | accepted queue => exact ⟨.hand 0, by simp, by simp [move?, hwaiting, hsend]⟩
    | full =>
      -- there is no room, so there is something to take out
      have hfull := (Queue.full_of_send_eq_full hsend).2
      rw [h.capacity] at hfull
      obtain ⟨e, rest, hitems⟩ := List.exists_cons_of_length_pos (hcapacity.trans_le hfull)
      exact ⟨.take, by simp, by simp [move?, Queue.receive, hitems]⟩
    | closed =>
      rw [Queue.receiving_of_send_eq_closed hsend] at hreceiving
      exact absurd hreceiving (by simp)
  | nil =>
    cases hreading : i.reading with
    | goesOn =>
      right
      cases hunread : i.unread with
      | nil => exact ⟨.finish, by simp, by simp [move?, hreading, hwaiting, hunread]⟩
      | cons b bs => exact ⟨.come 1, by simp, by simp [move?, hreading, hwaiting, hunread]⟩
    | atEnd => exact .inl ⟨hreading, hwaiting⟩
    | givenUp =>
      rw [(h.givenUp hreading).2] at hreceiving
      exact absurd hreceiving (by simp)

/-- **The events of an input.**  Let an input come bit by bit, and its events be taken out of a queue, after any
run.  Cut after each newline, the input has some lines, the last one maybe without its end; and so has the text
that it is as a whole, with a replacement for whatever is not UTF-8.  The events that the queue has accepted are
those of the first lines, one for each and in order: they count the lines and the octets up to the end of each,
and say the pieces of that text without their ends.  Once all lines are handed in, there is one for every line.

What was taken out is what was accepted, but for what is still in the queue or was in it when the receiver left.
A run is bounded, and while the receiver is there it goes on until all lines are handed in.

(Lines and octets are counted in words; they are the numbers themselves as far as these go.) -/
theorem reads_lines {ds : List Step} (hcapacity : 0 < capacity)
    (h : runSteps move? (start capacity input) ds = some i) :
    ∃ lines texts, Cut newline input lines ∧ lines.flatten = input ∧
      Cut '\n' (Utf8.decodeLossy input) texts ∧ texts = lines.map Utf8.decodeLossy ∧
      (∀ k e, i.accepted[k]? = some e → IsLine lines texts k e) ∧
      i.accepted.length ≤ lines.length ∧ (i.HasReadAll → i.accepted.length = lines.length) ∧
      (input.length < 2 ^ 64 →
        (∀ k e, i.accepted[k]? = some e →
          e.line.toNat = k + 1 ∧ e.offset.toNat = (lines.take (k + 1)).flatten.length) ∧
        i.accepted.Pairwise (fun e e' => e.offset < e'.offset) ∧
        (i.HasReadAll → ∀ e ∈ i.accepted.getLast?, e.offset.toNat = input.length)) ∧
      i.taken <+: i.accepted ∧
      (i.queue.receiving = true → i.accepted = i.taken ++ i.queue.items) ∧
      ds.length ≤ 2 * lines.length + input.length + 2 ∧
      (i.queue.receiving = true →
        i.HasReadAll ∨ ∃ d : Step, d ≠ .leave ∧ (i.move? d).isSome = true) := by
  have hreads := reads_run h
  obtain ⟨hfirst, hall⟩ := hreads.accepted_events
  have hcount : i.accepted.length ≤ (segments input).length := by
    have hle := hfirst.length_le
    rwa [List.length_map, events, length_eventsFrom] at hle
  have hcountAll (hread : i.HasReadAll) : i.accepted.length = (segments input).length := by
    have heq := congrArg List.length (hall hread)
    rwa [List.length_map, events, length_eventsFrom] at heq
  have hcut := cut_segments input
  refine ⟨segments input, _, hcut, hcut.flatten, cut_decodeLossy hcut, rfl,
    fun _ _ he => hreads.isLine he, hcount, hcountAll, fun hfit => ?_, hreads.taken, hreads.present, ?_,
    hreads.goesOn hcapacity⟩
  · have hne (s : Bytes) (hs : s ∈ segments input) : s ≠ [] := segments_ne_nil hs
    have hoctets := hcut.flatten
    rw [← hoctets] at hfit
    refine ⟨fun _ _ he => toNat_of_isLine (fun _ _ he => hreads.isLine he) hcount hne hfit he,
      pairwise_offset_lt (fun _ _ he => hreads.isLine he) hcount hne hfit, fun hread e he => ?_⟩
    rw [offset_getLast? (fun _ _ he => hreads.isLine he) hcount hne hfit (hcountAll hread) he, hoctets]
  · have hbound : ds.length + i.left ≤ (start capacity input).left :=
      length_le_of_runSteps (fun _ _ _ hi hm => reads_move? hi hm)
        (fun _ _ _ hi hm => left_move? (Reads.started hi) hm) h (reads_start capacity input)
    rw [left_start] at hbound
    omega

/-! ### An input that comes in pieces -/

/-- The first octet of a character, and a newline instead of its others; a letter, behind it the end of a line
as some systems write it; and a character without the end of its line. -/
def threeTexts : Bytes := [0xE2, 10, 0x61, 13, 10, 0xF0, 0x9F, 0x98, 0x80]

/-- Neither lines nor characters come as a whole, and the queue is full after every line. -/
def inPieces : List Step :=
  [.come 1, .come 2, .hand 5, .take, .come 1, .come 3, .hand 6, .take, .come 2, .finish, .hand 7]

theorem reads_lines_inPieces : ∃ i, runSteps move? (start 1 threeTexts) inPieces = some i ∧ i.HasReadAll ∧
    i.accepted.map (fun e => (e.line, e.offset, e.text)) = [(1, 2, "\uFFFD"), (2, 5, "a"), (3, 9, "😀")] ∧
    ∃ lines : List Bytes, lines.flatten = threeTexts ∧ i.accepted.length = lines.length ∧
      Cut '\n' (Utf8.decodeLossy threeTexts) (lines.map Utf8.decodeLossy) := by
  obtain ⟨i, hi⟩ : ∃ i, runSteps move? (start 1 threeTexts) inPieces = some i :=
    Option.isSome_iff_exists.1 rfl
  have hread : (runSteps move? (start 1 threeTexts) inPieces).map (fun i => (i.reading, i.waiting))
      = some (.atEnd, []) := rfl
  have hevents : (runSteps move? (start 1 threeTexts) inPieces).map
      (fun i => i.accepted.map (fun e => (e.line, e.offset, e.text)))
      = some [(1, 2, "\uFFFD"), (2, 5, "a"), (3, 9, "😀")] := by decide +kernel
  rw [hi] at hread hevents
  obtain ⟨hend, hwaiting⟩ := Prod.mk.inj (Option.some.inj hread)
  obtain ⟨lines, texts, -, hflatten, hcut, rfl, -, -, hall, -⟩ := reads_lines (by decide) hi
  exact ⟨i, hi, ⟨hend, hwaiting⟩, Option.some.inj hevents, lines, hflatten, hall ⟨hend, hwaiting⟩, hcut⟩

end Intake

end LogRelay
