import LogRelay.Ledger
import Mathlib.Data.List.Induction

/-!
# What a ledger has noted

A ledger takes batch after batch, until it is told that there will be no more.  What it has noted is said of
the events in those batches, without going through them one by one.

* `Positions.find?_foldl_record`: only the events of a source make its position;
* `Position.SumsUp`: what the position of a source says of its events;
* `Position.SumsUp.add`, `Positions.foldl_noted_eq_some_iff`: one more event, and all of them;
* `Ledger.delivered`, `Ledger.positions_after`: what a ledger was given, and what is left of it;
* `Ledger.accounts`: **the positions sum up the events of each source**, and nothing else has a part in them.
-/

namespace LogRelay

/-! ### Sources -/

namespace Dictionary

variable {α : Type}

theorem mem_keys_iff {m : Dictionary α} {k : String} : k ∈ m.keys ↔ ∃ a, m.find? k = some a := by
  rw [keys, find?]
  induction m.entries with
  | nil => simp [findEntry]
  | cons q rest ih =>
    obtain ⟨k', a⟩ := q
    rw [List.map_cons, List.mem_cons, ih, findEntry]
    by_cases h : k = k'
    · simp [h]
    · simp [h]

end Dictionary

namespace Positions

/-- A source's position after an event. -/
def noted (p : Option Position) (e : Event) : Option Position := some ((p.getD {}).add e)

theorem find?_record (m : Positions) (e : Event) (s : String) :
    (m.record e).find? s = if e.source = s then noted (m.find? s) e else m.find? s := by
  rw [record]
  split
  next h =>
    subst h
    exact Dictionary.find?_upsert_self _ _ _
  next h => exact Dictionary.find?_upsert_of_ne m (fun hs => h hs.symm) _

/-- Only the events of a source make its position. -/
theorem find?_foldl_record (es : List Event) (m : Positions) (s : String) :
    (es.foldl record m).find? s = (es.filter (·.source = s)).foldl noted (m.find? s) := by
  induction es generalizing m with
  | nil => rfl
  | cons e es ih =>
    rw [List.foldl_cons, ih, find?_record]
    by_cases h : e.source = s
    · rw [if_pos h, List.filter_cons_of_pos (by simpa using h), List.foldl_cons]
    · rw [if_neg h, List.filter_cons_of_neg (by simpa using h)]

theorem foldl_noted (p : Position) (es : List Event) :
    es.foldl noted (some p) = some (es.foldl Position.add p) := by
  induction es generalizing p with
  | nil => rfl
  | cons e es ih =>
    rw [List.foldl_cons, List.foldl_cons, ← ih]
    rfl

end Positions

/-! ### The position of one source -/

namespace Position

theorem events_add (p : Position) (e : Event) : (p.add e).events = p.events + 1 := by
  rw [add]
  split <;> rfl

theorem events_foldl_add (p : Position) (es : List Event) :
    (es.foldl add p).events = p.events + es.length := by
  induction es generalizing p with
  | nil => rfl
  | cons e es ih =>
    rw [List.foldl_cons, ih, events_add, List.length_cons]
    omega

theorem le_offset_add (p : Position) (e : Event) : p.offset ≤ (p.add e).offset := by
  rw [add]
  split
  next h => exact h
  next => exact UInt64.le_refl p.offset

theorem offset_le_add (p : Position) (e : Event) : e.offset ≤ (p.add e).offset := by
  rw [add]
  split
  next => exact UInt64.le_refl e.offset
  next h => exact UInt64.le_of_lt (UInt64.not_le.1 h)

theorem le_offset_foldl_add (p : Position) (es : List Event) : p.offset ≤ (es.foldl add p).offset := by
  induction es generalizing p with
  | nil => exact UInt64.le_refl p.offset
  | cons e es ih => exact UInt64.le_trans (p.le_offset_add e) (ih (p.add e))

/-- A position counts the events of its source, has the greatest of their offsets, and the line of the last one
that has this offset. -/
structure SumsUp (p : Position) (own : List Event) : Prop where
  events : p.events = own.length
  greatest : ∀ e ∈ own, e.offset ≤ p.offset
  line : (own.filter (·.offset = p.offset)).getLast?.map Event.line = some p.line

namespace SumsUp

variable {p p' : Position} {own : List Event}

theorem first (e : Event) : (Position.add {} e).SumsUp [e] := by
  -- no offset is below the one that a source begins with
  have hadd : Position.add {} e = ⟨e.offset, e.line, 1⟩ := if_pos e.offset.zero_le
  rw [hadd]
  exact ⟨rfl, by simp, by simp⟩

theorem add (h : p.SumsUp own) (e : Event) : (p.add e).SumsUp (own ++ [e]) := by
  have hcount : (p.add e).events = (own ++ [e]).length := by
    rw [events_add, h.events, List.length_append, List.length_singleton]
  refine ⟨hcount, fun d hd => ?_, ?_⟩
  · rcases List.mem_append.1 hd with hd | hd
    · exact UInt64.le_trans (h.greatest d hd) (p.le_offset_add e)
    · rw [List.mem_singleton.1 hd]
      exact p.offset_le_add e
  · rw [Position.add]
    split
    next hle =>
      -- the new event is the last one that has its offset
      rw [List.filter_append, List.filter_cons_of_pos (by simp), List.filter_nil, List.getLast?_concat]
      rfl
    next hle =>
      have hne : e.offset ≠ p.offset := fun heq => hle (UInt64.le_of_eq heq.symm)
      rw [List.filter_append, List.filter_cons_of_neg (by simpa using hne), List.filter_nil,
        List.append_nil]
      exact h.line

theorem exists_offset_eq (h : p.SumsUp own) : ∃ e ∈ own, e.offset = p.offset := by
  obtain ⟨e, he, -⟩ := Option.map_eq_some_iff.1 h.line
  obtain ⟨hmem, hoffset⟩ := List.mem_filter.1 (List.mem_of_getLast? he)
  exact ⟨e, hmem, by simpa using hoffset⟩

theorem ne_nil (h : p.SumsUp own) : own ≠ [] := by
  obtain ⟨e, he, -⟩ := h.exists_offset_eq
  exact List.ne_nil_of_mem he

theorem offset_le (h : p.SumsUp own) (h' : p'.SumsUp own) : p.offset ≤ p'.offset := by
  obtain ⟨e, he, hoffset⟩ := h.exists_offset_eq
  rw [← hoffset]
  exact h'.greatest e he

/-- Events are summed up in one way only. -/
theorem unique (h : p.SumsUp own) (h' : p'.SumsUp own) : p = p' := by
  have hoffset : p.offset = p'.offset := UInt64.le_antisymm (h.offset_le h') (h'.offset_le h)
  have hline : some p.line = some p'.line := by
    rw [← h.line, ← h'.line, hoffset]
  have hevents : p.events = p'.events := h.events.trans h'.events.symm
  cases p
  cases p'
  simp_all

end SumsUp

end Position

namespace Positions

theorem exists_foldl_noted {own : List Event} (h : own ≠ []) :
    ∃ p, own.foldl noted none = some p ∧ p.SumsUp own := by
  induction own using List.reverseRecOn with
  | nil => exact absurd rfl h
  | append_singleton before e ih =>
    rw [List.foldl_append]
    by_cases hbefore : before = []
    · subst hbefore
      exact ⟨_, rfl, .first e⟩
    · obtain ⟨p, hp, hsums⟩ := ih hbefore
      rw [hp]
      exact ⟨_, rfl, hsums.add e⟩

/-- A source has a position if it has events, and it is the one that sums them up. -/
theorem foldl_noted_eq_some_iff {own : List Event} {p : Position} :
    own.foldl noted none = some p ↔ p.SumsUp own := by
  constructor
  · intro h
    have hne : own ≠ [] := by
      rintro rfl
      exact absurd h (by simp)
    obtain ⟨p', hp', hsums⟩ := exists_foldl_noted hne
    rw [h] at hp'
    rwa [Option.some.inj hp']
  · intro h
    obtain ⟨p', hp', hsums⟩ := exists_foldl_noted h.ne_nil
    rw [hp', hsums.unique h]

/-- More events of any sources let a position grow. -/
theorem exists_find?_foldl_record {m : Positions} {s : String} {p : Position} (h : m.find? s = some p)
    (es : List Event) :
    ∃ p', (es.foldl record m).find? s = some p' ∧ p.offset ≤ p'.offset ∧ p.events ≤ p'.events := by
  rw [find?_foldl_record, h, foldl_noted]
  refine ⟨_, rfl, p.le_offset_foldl_add _, ?_⟩
  rw [Position.events_foldl_add]
  exact Nat.le_add_right _ _

end Positions

/-! ### A ledger at work -/

namespace Ledger

def after (l : Ledger) (answers : List (Taking Batch)) : Ledger := answers.foldl (fun l a => (l.answer a).2) l

/-- The batches among the answers, before the first one that tells that there will be no more. -/
def delivered : List (Taking Batch) → List Batch
  | .item b :: answers => b :: delivered answers
  | _ => []

theorem after_cons (l : Ledger) (a : Taking Batch) (answers : List (Taking Batch)) :
    l.after (a :: answers) = (l.answer a).2.after answers := rfl

theorem after_append (l : Ledger) (answers more : List (Taking Batch)) :
    l.after (answers ++ more) = (l.after answers).after more := List.foldl_append

theorem after_of_finished {l : Ledger} (h : l.finished = true) (answers : List (Taking Batch)) :
    l.after answers = l := by
  induction answers with
  | nil => rfl
  | cons a answers ih =>
    have hsame : (l.answer a).2 = l := by
      cases a <;> simp [answer, h]
    rw [after_cons, hsame, ih]

section

variable {l : Ledger} (h : l.finished = false)
include h

theorem answer_item (b : Batch) :
    (l.answer (.item b)).2 = { l with positions := l.positions.recordBatch b } := by
  simp [answer, h]

theorem answer_end {a : Taking Batch} (ha : ∀ b, a ≠ .item b) :
    (l.answer a).2 = { l with finished := true } := by
  cases a with
  | item b => exact absurd rfl (ha b)
  | closed | cancelled => simp [answer, h]

/-- A ledger records the batches that are delivered, one event after the other. -/
theorem positions_after (answers : List (Taking Batch)) :
    (l.after answers).positions =
      ((delivered answers).flatMap Batch.events).foldl Positions.record l.positions := by
  induction answers generalizing l with
  | nil => rfl
  | cons a answers ih =>
    cases a with
    | item b =>
      rw [after_cons, answer_item h, ih (by exact h), delivered, List.flatMap_cons, List.foldl_append]
      rfl
    | closed | cancelled =>
      rw [after_cons, answer_end h (by simp), after_of_finished rfl]
      rfl

end

/-- What a ledger has noted is still there after whatever comes next, and has not shrunk. -/
theorem exists_find?_after {l : Ledger} {s : String} {p : Position} (hp : l.positions.find? s = some p)
    (more : List (Taking Batch)) :
    ∃ p', (l.after more).positions.find? s = some p' ∧ p.offset ≤ p'.offset ∧ p.events ≤ p'.events := by
  cases h : l.finished with
  | false =>
    rw [positions_after h]
    exact Positions.exists_find?_foldl_record hp _
  | true =>
    rw [after_of_finished h]
    exact ⟨p, hp, UInt64.le_refl p.offset, Nat.le_refl p.events⟩

/-- **The positions sum up the events of each source.**  After any answers, exactly the sources of the events
that were delivered have a position, and it is the one that sums up their events.  How the events are cut into
batches makes no difference, and neither do the events of other sources.  With whatever comes next, no source
is lost, and no offset and no count goes back. -/
theorem accounts (answers : List (Taking Batch)) :
    let events := (delivered answers).flatMap Batch.events
    let positions := (after {} answers).positions
    (∀ s, s ∈ positions.keys ↔ ∃ e ∈ events, e.source = s) ∧
    (∀ s p, positions.find? s = some p ↔ p.SumsUp (events.filter (·.source = s))) ∧
    (∀ others, (delivered others).flatMap Batch.events = events →
      (after {} others).positions = positions) ∧
    (∀ others s, ((delivered others).flatMap Batch.events).filter (·.source = s)
        = events.filter (·.source = s) →
      (after {} others).positions.find? s = positions.find? s) ∧
    ∀ more s p, positions.find? s = some p →
      ∃ p', (after {} (answers ++ more)).positions.find? s = some p' ∧
        p.offset ≤ p'.offset ∧ p.events ≤ p'.events := by
  intro events positions
  have hall (others : List (Taking Batch)) : (after {} others).positions =
      ((delivered others).flatMap Batch.events).foldl Positions.record ∅ := positions_after rfl others
  have hown (others : List (Taking Batch)) (s : String) : (after {} others).positions.find? s =
      (((delivered others).flatMap Batch.events).filter (·.source = s)).foldl Positions.noted none := by
    rw [hall, Positions.find?_foldl_record]
    rfl
  have hsums (s : String) (p : Position) :
      positions.find? s = some p ↔ p.SumsUp (events.filter (·.source = s)) := by
    rw [hown, Positions.foldl_noted_eq_some_iff]
  refine ⟨fun s => ?_, hsums, fun others h => ?_, fun others s h => ?_, fun more s p hp => ?_⟩
  · rw [Dictionary.mem_keys_iff]
    constructor
    · rintro ⟨p, hp⟩
      obtain ⟨e, he, -⟩ := ((hsums s p).1 hp).exists_offset_eq
      obtain ⟨hmem, hsource⟩ := List.mem_filter.1 he
      exact ⟨e, hmem, by simpa using hsource⟩
    · rintro ⟨e, he, hsource⟩
      have hne : events.filter (·.source = s) ≠ [] :=
        List.ne_nil_of_mem (List.mem_filter.2 ⟨he, by simpa using hsource⟩)
      obtain ⟨p, -, hp⟩ := Positions.exists_foldl_noted hne
      exact ⟨p, (hsums s p).2 hp⟩
  · rw [hall, h, ← hall]
  · rw [hown, h, ← hown]
  · rw [after_append]
    exact exists_find?_after hp more

/-- Of two events with the greatest offset the later one gives the line, and an event with a smaller offset
only counts. -/
example : (after {} [.item ⟨0, [.read 0 "a" 9 1 "", .read 0 "b" 0 1 "", .read 0 "a" 9 2 ""]⟩,
    .item ⟨1, [.read 0 "a" 3 7 ""]⟩, .closed]).positions.find? "a" = some ⟨9, 2, 3⟩ := by
  decide

end Ledger

end LogRelay
