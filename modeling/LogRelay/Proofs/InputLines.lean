import LogRelay.InputLines
import LogRelay.Proofs.Ledger
import Mathlib.Algebra.Group.Nat.Defs
import Mathlib.Data.List.Infix

/-!
# Where reading can be taken up again

An input is cut into lines, and the events of its lines count octets and lines.  Cutting it anew behind
some of its lines gives the others, and their events count from there.

* `segments_flatten`: the pieces behind some lines are the lines behind them;
* `Reader.segments_add`: what a reader gives and what is still to come;
* `eventsFrom_append`, `eventsFrom_shifted`: events behind some lines, and events that count from a later
  place;
* `foldl_add_eventsFrom`: **the position of lines from the first one on is the place behind them**, as far
  as an offset can count.
-/

namespace LogRelay

/-- How far the reading of an input has come. -/
inductive Reading where
  | goesOn
  | atEnd
  | givenUp
deriving DecidableEq

namespace InputLines

/-! ### Lines -/

theorem segments_ne_nil {input s : Bytes} (h : s ∈ segments input) : s ≠ [] := by
  induction input generalizing s with
  | nil => exact absurd h (by simp [segments])
  | cons b bs ih =>
    rw [segments] at h
    split at h
    · rcases List.mem_cons.1 h with rfl | h
      · simp
      · exact ih h
    · split at h
      · rw [List.mem_singleton.1 h]
        simp
      next s' rest hs =>
        rw [hs] at ih
        rcases List.mem_cons.1 h with rfl | h
        · simp
        · exact ih (List.mem_cons_of_mem _ h)

theorem segments_flatten_tail {input s : Bytes} {rest : List Bytes} (h : segments input = s :: rest) :
    segments rest.flatten = rest := by
  induction input generalizing s rest with
  | nil => exact absurd h (by simp [segments])
  | cons b bs ih =>
    rw [segments] at h
    split at h
    · obtain ⟨-, rfl⟩ := List.cons.inj h
      rw [flatten_segments]
    · split at h
      · obtain ⟨-, rfl⟩ := List.cons.inj h
        rfl
      next s' rest' hs =>
        obtain ⟨-, rfl⟩ := List.cons.inj h
        exact ih hs

/-- Cut anew, the pieces behind some lines stay as they are. -/
theorem segments_flatten {input : Bytes} {before after : List Bytes}
    (h : segments input = before ++ after) : segments after.flatten = after := by
  induction before generalizing input with
  | nil =>
    rw [List.nil_append] at h
    rw [← h, flatten_segments]
  | cons s before ih => exact ih (segments_flatten_tail h)

/-- The rest of an input behind some of its lines. -/
theorem drop_flatten {input : Bytes} {before after : List Bytes} (h : segments input = before ++ after) :
    input.drop before.flatten.length = after.flatten := by
  have hinput : input = before.flatten ++ after.flatten := by
    rw [← List.flatten_append, ← h, flatten_segments]
  rw [hinput, List.drop_left]

/-- The lines that a reader gives, and those that are still to come. -/
theorem Reader.segments_add (r : Reader) (bs cs : Bytes) (h : newline ∉ r.started) :
    segments (r.started.reverse ++ (bs ++ cs)) =
      (r.add bs).1 ++ segments ((r.add bs).2.started.reverse ++ cs) := by
  rw [← r.add_rest _ h, ← (r.add bs).2.add_rest _ (r.newline_notMem_add bs h), r.add_append,
    List.append_assoc]

/-- Octets that end no line are one piece. -/
theorem Reader.segments_rest (r : Reader) (h : newline ∉ r.started) :
    segments r.started.reverse = r.rest?.toList := by
  have hrest := r.add_rest [] h
  rw [List.append_nil] at hrest
  exact hrest.symm

theorem length_le_flatten {pieces : List Bytes} (h : ∀ s ∈ pieces, s ≠ []) :
    pieces.length ≤ pieces.flatten.length := by
  induction pieces with
  | nil => exact le_refl 0
  | cons s pieces ih =>
    have hs : 0 < s.length := List.length_pos_iff.2 (h s List.mem_cons_self)
    have hrest := ih fun s' hs' => h s' (List.mem_cons_of_mem s hs')
    simp only [List.length_cons, List.flatten_cons, List.length_append]
    omega

/-! ### Events -/

/-- The place behind some pieces. -/
def Place.afterAll (p : Place) (pieces : List Bytes) : Place := pieces.foldl Place.after p

theorem Place.afterAll_eq (p : Place) (pieces : List Bytes) :
    p.afterAll pieces = ⟨p.offset + pieces.flatten.length, p.line + pieces.length⟩ := by
  induction pieces generalizing p with
  | nil => rfl
  | cons s pieces ih =>
    have hstep : p.afterAll (s :: pieces) = (p.after s).afterAll pieces := rfl
    rw [hstep, ih, after]
    simp only [List.flatten_cons, List.length_append, List.length_cons, Place.mk.injEq]
    omega

theorem eventsFrom_append (now : Nat) (p : Place) (before after : List Bytes) :
    eventsFrom now p (before ++ after) =
      eventsFrom now p before ++ eventsFrom now (p.afterAll before) after := by
  induction before generalizing p with
  | nil => rfl
  | cons s before ih =>
    rw [List.cons_append, eventsFrom, ih, eventsFrom, List.cons_append]
    rfl

@[simp] theorem length_eventsFrom (now : Nat) (p : Place) (pieces : List Bytes) :
    (eventsFrom now p pieces).length = pieces.length := by
  induction pieces generalizing p with
  | nil => rfl
  | cons s pieces ih => rw [eventsFrom, List.length_cons, ih, List.length_cons]

theorem source_of_mem_eventsFrom {now : Nat} {p : Place} {pieces : List Bytes} {e : Event}
    (h : e ∈ eventsFrom now p pieces) : e.source = source := by
  induction pieces generalizing p with
  | nil => exact absurd h (by simp [eventsFrom])
  | cons s pieces ih =>
    rcases List.mem_cons.1 h with rfl | h
    · rfl
    · exact ih h

end InputLines

namespace Event

/-- An event, whenever its line was read. -/
def untimed (e : Event) : Event := { e with timestamp := 0 }

/-- An event that counts from an earlier place, so many octets and lines before. -/
def shifted (offset line : UInt64) (e : Event) : Event :=
  { e with offset := e.offset + offset, line := e.line + line }

end Event

namespace InputLines

/-- Events that count from a later place. -/
theorem eventsFrom_shifted (now : Nat) (p q : Place) (pieces : List Bytes) :
    eventsFrom now ⟨p.offset + q.offset, p.line + q.line⟩ pieces =
      (eventsFrom now p pieces).map (Event.shifted (.ofNat q.offset) (.ofNat q.line)) := by
  induction pieces generalizing p with
  | nil => rfl
  | cons s pieces ih =>
    have hplace : Place.after ⟨p.offset + q.offset, p.line + q.line⟩ s
        = ⟨(p.after s).offset + q.offset, (p.after s).line + q.line⟩ := by
      simp only [Place.after, Place.mk.injEq]
      omega
    rw [eventsFrom, eventsFrom, List.map_cons, hplace, ih (p.after s)]
    simp only [event, Event.read, Event.shifted, UInt64.ofNat_add]

end InputLines

/-! ### The position of lines -/

namespace InputLines

/-- The position of a place, after so many events. -/
def Place.position (p : Place) (events : Nat) : Position := ⟨.ofNat p.offset, .ofNat p.line, events⟩

theorem add_event {now n : Nat} {p : Place} {s : Bytes} (h : p.offset + s.length < 2 ^ 64) :
    (p.position n).add (event now (p.after s) s) = (p.after s).position (n + 1) := by
  have hle : UInt64.ofNat p.offset ≤ UInt64.ofNat (p.offset + s.length) := by
    have hbefore : p.offset < 2 ^ 64 := by omega
    rw [UInt64.le_iff_toNat_le, UInt64.toNat_ofNat_of_lt' hbefore, UInt64.toNat_ofNat_of_lt' h]
    omega
  rw [Position.add, Place.position, event, Event.read, if_pos (by exact hle)]
  rfl

/-- **The position of lines is the place behind them.** -/
theorem foldl_add_eventsFrom {now : Nat} {p : Place} {pieces : List Bytes} {n : Nat}
    (h : p.offset + pieces.flatten.length < 2 ^ 64) :
    (eventsFrom now p pieces).foldl Position.add (p.position n) =
      (p.afterAll pieces).position (n + pieces.length) := by
  induction pieces generalizing p n with
  | nil => rfl
  | cons s pieces ih =>
    rw [List.flatten_cons, List.length_append] at h
    have hnext : (p.after s).offset + pieces.flatten.length < 2 ^ 64 := by
      show p.offset + s.length + pieces.flatten.length < 2 ^ 64
      omega
    rw [eventsFrom, List.foldl_cons, add_event (by omega), ih hnext, List.length_cons, Nat.add_assoc,
      Nat.add_comm 1]
    rfl

/-- The position that the events of some lines leave behind. -/
theorem find?_record_eventsFrom {pieces : List Bytes} {p : Position}
    (h : ((eventsFrom 0 {} pieces).foldl Positions.record ∅).find? source = some p) :
    pieces ≠ [] ∧ p = (eventsFrom 0 {} pieces).foldl Position.add {} := by
  have hall : (eventsFrom 0 {} pieces).filter (·.source = source) = eventsFrom 0 {} pieces := by
    rw [List.filter_eq_self]
    intro e he
    simpa using source_of_mem_eventsFrom he
  rw [Positions.find?_foldl_record, hall] at h
  cases pieces with
  | nil => exact absurd h (by simp [eventsFrom, EmptyCollection.emptyCollection])
  | cons s pieces =>
    refine ⟨by simp, ?_⟩
    rw [eventsFrom, List.foldl_cons] at h ⊢
    exact (Option.some.inj ((Positions.foldl_noted _ _).symm.trans h)).symm

end InputLines

end LogRelay
