import LogRelay.Event
import LogRelay.Journal
import LogRelay.Text.Utf8

/-!
# Lines of an input

An input becomes one event for each line, and one for what follows the last line's end if that is not empty.
Offsets count octets, whatever they stand for; octets that are no text are replaced.

* `InputLines.segments`: the lines with their ends;
* `InputLines.Reader`: cuts an input that comes bit by bit;
* `InputLines.readAll_eq_segments`: however the input comes, it is cut in the same way;
* `InputLines.events`: the events of an input.
-/

namespace LogRelay.InputLines

/-- The name of the input as a source. -/
def source : String := "-"

/-- The octet that ends a line. -/
def newline : UInt8 := 10

/-- The pieces of an input, cut after each end of a line. -/
def segments : Bytes → List Bytes
  | [] => []
  | b :: bs =>
    if b = newline then [b] :: segments bs
    else
      match segments bs with
      | [] => [[b]]
      | s :: rest => (b :: s) :: rest

/-- Nothing is lost by cutting. -/
theorem flatten_segments (bs : Bytes) : (segments bs).flatten = bs := by
  induction bs with
  | nil => rfl
  | cons b bs ih =>
    simp only [segments]
    split
    · simp [ih]
    · split
      next h => rw [h] at ih; simp [← ih]
      next h => rw [h] at ih; simp [← ih]

theorem segments_line {body : Bytes} (h : newline ∉ body) (rest : Bytes) :
    segments (body ++ newline :: rest) = (body ++ [newline]) :: segments rest := by
  induction body with
  | nil => simp [segments]
  | cons b body ih =>
    simp only [List.mem_cons, not_or] at h
    simp [segments, ih h.2, Ne.symm h.1]

theorem segments_of_notMem {body : Bytes} (h : newline ∉ body) :
    segments body = if body.isEmpty then [] else [body] := by
  induction body with
  | nil => rfl
  | cons b body ih =>
    simp only [List.mem_cons, not_or] at h
    rw [segments, if_neg (Ne.symm h.1), ih h.2]
    cases body <;> simp

/-! ### Reading bit by bit -/

/-- A reader keeps the beginning of a line whose end has not come yet. -/
structure Reader where
  /-- The octets since the last end of a line, the latest first. -/
  started : Bytes := []
deriving DecidableEq, Repr

namespace Reader

/-- Takes one octet; the end of a line completes the line. -/
def push (r : Reader) (b : UInt8) : Option Bytes × Reader :=
  if b = newline then (some (b :: r.started).reverse, {}) else (none, ⟨b :: r.started⟩)

/-- Takes some octets; gives the lines that they complete. -/
def add : Reader → Bytes → List Bytes × Reader
  | r, [] => ([], r)
  | r, b :: bs =>
    let (line, r) := r.push b
    let (lines, r) := add r bs
    (line.toList ++ lines, r)

/-- The line without an end that is left when the input has ended, if there is one. -/
def rest? (r : Reader) : Option Bytes := if r.started.isEmpty then none else some r.started.reverse

/-- The lines of an input that comes in these pieces, each as soon as it is complete. -/
def readAll : Reader → List Bytes → List Bytes
  | r, [] => r.rest?.toList
  | r, chunk :: chunks =>
    let (lines, r) := r.add chunk
    lines ++ readAll r chunks

theorem add_append (r : Reader) (bs cs : Bytes) :
    r.add (bs ++ cs) = ((r.add bs).1 ++ ((r.add bs).2.add cs).1, ((r.add bs).2.add cs).2) := by
  induction bs generalizing r with
  | nil => simp [add]
  | cons b bs ih => simp [add, ih]

/-- The octets that a reader keeps stand before the first end of a line to come. -/
theorem add_rest (r : Reader) (bs : Bytes) (h : newline ∉ r.started) :
    (r.add bs).1 ++ (r.add bs).2.rest?.toList = segments (r.started.reverse ++ bs) := by
  induction bs generalizing r with
  | nil =>
    rw [List.append_nil, segments_of_notMem (by simpa using h)]
    cases hs : r.started <;> simp [add, rest?, hs]
  | cons b bs ih =>
    by_cases hb : b = newline
    · subst hb
      rw [segments_line (by simpa using h), ← List.nil_append bs, ← List.reverse_nil]
      rw [← ih {} (by simp)]
      simp [add, push]
    · rw [show r.started.reverse ++ b :: bs = (b :: r.started).reverse ++ bs by simp]
      rw [← ih ⟨b :: r.started⟩ (by simp [h, Ne.symm hb])]
      simp [add, push, hb]

theorem newline_notMem_add (r : Reader) (bs : Bytes) (h : newline ∉ r.started) :
    newline ∉ (r.add bs).2.started := by
  induction bs generalizing r with
  | nil => exact h
  | cons b bs ih =>
    simp only [add, push]
    split
    next hb => exact ih {} (by simp)
    next hb => exact ih ⟨b :: r.started⟩ (by simp [h, Ne.symm hb])

theorem readAll_eq (r : Reader) (chunks : List Bytes) (h : newline ∉ r.started) :
    r.readAll chunks = segments (r.started.reverse ++ chunks.flatten) := by
  induction chunks generalizing r with
  | nil => simpa [readAll, add] using r.add_rest [] h
  | cons chunk chunks ih =>
    show (r.add chunk).1 ++ (r.add chunk).2.readAll chunks = _
    rw [ih _ (r.newline_notMem_add chunk h)]
    rw [List.flatten_cons, ← r.add_rest _ h, add_append]
    rw [List.append_assoc, ← add_rest _ _ (r.newline_notMem_add chunk h)]

end Reader

/-- However an input is cut into pieces, the same lines are read. -/
theorem readAll_eq_segments (chunks : List Bytes) :
    Reader.readAll {} chunks = segments chunks.flatten := by
  simpa using Reader.readAll_eq {} chunks (by simp)

/-! ### Lines as events -/

/-- Whether a character belongs to the end of a line. -/
def isLineEnd (c : Char) : Bool := c == '\n' || c == '\r'

/-- Characters without those of a line's end at their end. -/
def dropLineEnd (cs : List Char) : List Char := (cs.reverse.dropWhile isLineEnd).reverse

/-- The text of a piece. -/
def text (segment : Bytes) : String := String.ofList (dropLineEnd (Utf8.decodeLossy segment))

/-- How far an input was read. -/
structure Place where
  offset : Nat := 0
  line : Nat := 0
deriving DecidableEq, Repr

/-- The place after one more piece. -/
def Place.after (p : Place) (segment : Bytes) : Place := ⟨p.offset + segment.length, p.line + 1⟩

/-- The event of a piece that ends at `p` and was read at `now`, in milliseconds since 1970. -/
def event (now : Nat) (p : Place) (segment : Bytes) : Event :=
  Event.read now source (UInt64.ofNat p.offset) (UInt64.ofNat p.line) (text segment)

/-- The events of pieces that follow a place. -/
def eventsFrom (now : Nat) : Place → List Bytes → List Event
  | _, [] => []
  | p, s :: rest => event now (p.after s) s :: eventsFrom now (p.after s) rest

/-- The events of an input that is read at `now`, in milliseconds since 1970. -/
def events (now : Nat) (input : Bytes) : List Event := eventsFrom now {} (segments input)

end LogRelay.InputLines
