import LogRelay.Proofs.InputLines
import LogRelay.Proofs.Text.Parts
import LogRelay.Proofs.Text.Utf8

/-!
# The texts of lines

The octets of each line are read as a text alone.  This gives what one gets from reading the whole input as one
text first, whatever octets there are that are not UTF-8, and cutting that into lines.

* `Cut`: a row that is cut after each occurrence of something, and `Cut.unique`: there is one way to do so;
* `InputLines.cut_iff`: the lines of an input are its octets, cut so;
* `InputLines.cut_decodeLossy`: **reading the octets and cutting into lines may change places**;
* `InputLines.Strips`, `InputLines.strips_iff`: what a text is without the end of its line;
* `InputLines.IsLine`, `InputLines.isLine_event`: what the event of a line says.
-/

namespace LogRelay

/-! ### Cutting a row -/

section

variable {α : Type} {a : α}

/-- A row in pieces, cut after each `a`.  What follows the last `a` is a piece if it is not empty. -/
inductive Cut (a : α) : List α → List (List α) → Prop where
  | nil : Cut a [] []
  | rest {body : List α} (hne : body ≠ []) (hbody : a ∉ body) : Cut a body [body]
  | line {body rest : List α} {pieces : List (List α)} (hbody : a ∉ body) (hrest : Cut a rest pieces) :
      Cut a (body ++ a :: rest) ((body ++ [a]) :: pieces)

/-- Nothing is lost by cutting. -/
theorem Cut.flatten {row : List α} {pieces : List (List α)} (h : Cut a row pieces) :
    pieces.flatten = row := by
  induction h with
  | nil => rfl
  | rest => exact List.append_nil _
  | line _ _ ih => rw [List.flatten_cons, ih, List.append_assoc, List.singleton_append]

theorem append_cons_inj {body body' rest rest' : List α} (h : a ∉ body) (h' : a ∉ body')
    (heq : body ++ a :: rest = body' ++ a :: rest') : body = body' ∧ rest = rest' := by
  induction body generalizing body' with
  | nil =>
    cases body' with
    | nil => exact ⟨rfl, (List.cons.inj heq).2⟩
    | cons b body' => exact absurd (List.mem_cons.2 (.inl (List.cons.inj heq).1)) h'
  | cons b body ih =>
    cases body' with
    | nil => exact absurd (List.mem_cons.2 (.inl (List.cons.inj heq).1.symm)) h
    | cons b' body' =>
      obtain ⟨rfl, htail⟩ := List.cons.inj heq
      obtain ⟨rfl, rfl⟩ := ih (List.not_mem_of_not_mem_cons h) (List.not_mem_of_not_mem_cons h') htail
      exact ⟨rfl, rfl⟩

/-- **There is one way to cut a row.** -/
theorem Cut.unique {row : List α} {pieces pieces' : List (List α)} (h : Cut a row pieces)
    (h' : Cut a row pieces') : pieces = pieces' := by
  induction h generalizing pieces' with
  | nil =>
    generalize hrow : ([] : List α) = row at h'
    cases h' with
    | nil => rfl
    | rest hne => exact absurd hrow.symm hne
    | line => exact absurd hrow (by simp)
  | @rest body hne hbody =>
    cases h' with
    | nil => exact absurd rfl hne
    | rest => rfl
    | line => exact absurd (List.mem_append_right _ List.mem_cons_self) hbody
  | @line body rest pieces hbody hrest ih =>
    generalize hrow : body ++ a :: rest = row at h'
    cases h' with
    | nil => exact absurd hrow (by simp)
    | rest _ hbody' => exact absurd (hrow ▸ List.mem_append_right _ List.mem_cons_self) hbody'
    | line hbody' hrest' =>
      obtain ⟨rfl, rfl⟩ := append_cons_inj hbody hbody' hrow
      rw [ih hrest']

/-- One more at the front that is not cut off. -/
theorem Cut.cons {b : α} {row piece : List α} {pieces : List (List α)} (h : Cut a row (piece :: pieces))
    (hb : a ≠ b) : Cut a (b :: row) ((b :: piece) :: pieces) := by
  cases h with
  | rest hne hbody => exact .rest (by simp) (by simp [hb, hbody])
  | @line body _ _ hbody hrest => exact @Cut.line _ _ (b :: body) _ _ (by simp [hb, hbody]) hrest

end

namespace InputLines

/-! ### Lines -/

/-- The lines of an input are its octets, cut after each end of a line. -/
theorem cut_segments (input : Bytes) : Cut newline input (segments input) := by
  induction input with
  | nil => exact .nil
  | cons b bs ih =>
    rw [segments]
    split
    next hb =>
      subst hb
      exact @Cut.line _ _ [] _ _ List.not_mem_nil ih
    next hb =>
      split
      next hs =>
        have hbs : bs = [] := by rw [← flatten_segments bs, hs, List.flatten_nil]
        rw [hbs]
        exact .rest (by simp) (by simp [Ne.symm hb])
      next hs => exact Cut.cons (hs ▸ ih) (Ne.symm hb)

theorem cut_iff {input : Bytes} {lines : List Bytes} : Cut newline input lines ↔ lines = segments input :=
  ⟨fun h => h.unique (cut_segments input), fun h => h ▸ cut_segments input⟩

theorem newline_notMem_decodeLossy {bs : Bytes} (h : newline ∉ bs) : '\n' ∉ Utf8.decodeLossy bs :=
  fun hmem => h (Utf8.mem_of_mem_decodeLossy hmem (by decide) (by decide))

theorem decodeLossy_newline (xs ys : Bytes) :
    Utf8.decodeLossy (xs ++ newline :: ys) = Utf8.decodeLossy xs ++ '\n' :: Utf8.decodeLossy ys :=
  Utf8.decodeLossy_append (by decide) xs ys

/-- **The texts of the lines are the lines of the text.**  No octets that are not UTF-8 are read across the end
of a line, and no end of a line is read from anything but its own octet. -/
theorem cut_decodeLossy {input : Bytes} {lines : List Bytes} (h : Cut newline input lines) :
    Cut '\n' (Utf8.decodeLossy input) (lines.map Utf8.decodeLossy) := by
  induction h with
  | nil =>
    rw [Utf8.decodeLossy_eq_nil_iff.2 rfl]
    exact .nil
  | rest hne hbody =>
    exact .rest (fun h => hne (Utf8.decodeLossy_eq_nil_iff.1 h)) (newline_notMem_decodeLossy hbody)
  | @line body rest pieces hbody _ ih =>
    have hline : Utf8.decodeLossy (body ++ [newline]) = Utf8.decodeLossy body ++ ['\n'] := by
      rw [decodeLossy_newline, Utf8.decodeLossy_eq_nil_iff.2 rfl]
    rw [decodeLossy_newline, List.map_cons, hline]
    exact .line (newline_notMem_decodeLossy hbody) ih

/-! ### Without the end of a line -/

/-- `core` is `cs` without the characters of a line's end that stand at its end. -/
structure Strips (core cs : List Char) : Prop where
  ended : ∃ ends, cs = core ++ ends ∧ ∀ c ∈ ends, c = '\n' ∨ c = '\r'
  last : ∀ c ∈ core.getLast?, c ≠ '\n' ∧ c ≠ '\r'

@[simp] theorem isLineEnd_eq_true_iff {c : Char} : isLineEnd c = true ↔ c = '\n' ∨ c = '\r' := by
  simp [isLineEnd]

@[simp] theorem isLineEnd_eq_false_iff {c : Char} : isLineEnd c = false ↔ c ≠ '\n' ∧ c ≠ '\r' := by
  simp [isLineEnd]

theorem strips_dropLineEnd (cs : List Char) : Strips (dropLineEnd cs) cs := by
  refine ⟨⟨(cs.reverse.takeWhile isLineEnd).reverse, ?_, fun c hc => ?_⟩, fun c hc => ?_⟩
  · rw [dropLineEnd, ← List.reverse_append, List.takeWhile_append_dropWhile, List.reverse_reverse]
  · exact isLineEnd_eq_true_iff.1 (List.mem_takeWhile_imp (List.mem_reverse.1 hc))
  · rw [dropLineEnd, List.getLast?_reverse] at hc
    exact isLineEnd_eq_false_iff.1 (Text.head_dropWhile hc)

/-- **One text is left of a line without its end.** -/
theorem strips_iff {core cs : List Char} : Strips core cs ↔ core = dropLineEnd cs := by
  refine ⟨fun ⟨⟨ends, hcs, hends⟩, hlast⟩ => ?_, fun h => h ▸ strips_dropLineEnd cs⟩
  have hdrop : (ends.reverse ++ core.reverse).dropWhile isLineEnd = core.reverse :=
    Text.dropWhile_framed (fun c hc => isLineEnd_eq_true_iff.2 (hends c (List.mem_reverse.1 hc)))
      (fun c hc => isLineEnd_eq_false_iff.2 (hlast c (by rwa [List.head?_reverse] at hc)))
  rw [dropLineEnd, hcs, List.reverse_append, hdrop, List.reverse_reverse]

/-! ### The events of lines -/

/-- An event is that of the `k`-th line, counted from zero: it counts this line and the octets up to its end,
and says the text of this line without its end. -/
structure IsLine (lines : List Bytes) (texts : List (List Char)) (k : Nat) (e : Event) : Prop where
  source : e.source = "-"
  line : e.line = .ofNat (k + 1)
  offset : e.offset = .ofNat (lines.take (k + 1)).flatten.length
  text : ∃ cs, texts[k]? = some cs ∧ Strips e.text.toList cs
  fields : e.fields = ∅

theorem getElem?_eventsFrom {now : Nat} {p : Place} {pieces : List Bytes} {k : Nat} {s : Bytes}
    (h : pieces[k]? = some s) :
    (eventsFrom now p pieces)[k]? = some (event now (p.afterAll (pieces.take (k + 1))) s) := by
  induction pieces generalizing p k with
  | nil => exact absurd h (by simp)
  | cons s' pieces ih =>
    cases k with
    | zero =>
      obtain rfl : s' = s := Option.some.inj h
      rfl
    | succ k => exact ih h

theorem isLine_event (now : Nat) {lines : List Bytes} {k : Nat} {s : Bytes} (h : lines[k]? = some s) :
    IsLine lines (lines.map Utf8.decodeLossy) k
      (event now (Place.afterAll {} (lines.take (k + 1))) s) := by
  have hk : k < lines.length := (List.getElem?_eq_some_iff.1 h).1
  have hplace := Place.afterAll_eq {} (lines.take (k + 1))
  rw [Nat.zero_add, Nat.zero_add, List.length_take, Nat.min_eq_left hk] at hplace
  rw [hplace]
  refine ⟨rfl, rfl, rfl, ⟨Utf8.decodeLossy s, by rw [List.getElem?_map, h]; rfl, ?_⟩, rfl⟩
  rw [event, Event.read, text, String.toList_ofList]
  exact strips_dropLineEnd _

theorem isLine_of_untimed {lines : List Bytes} {texts : List (List Char)} {k : Nat} {e : Event}
    (h : IsLine lines texts k e.untimed) : IsLine lines texts k e :=
  ⟨h.source, h.line, h.offset, h.text, h.fields⟩

/-- No line is empty, so that they end one behind the other. -/
theorem length_flatten_take_lt {pieces : List Bytes} (h : ∀ s ∈ pieces, s ≠ []) {m n : Nat} (hlt : m < n)
    (hle : n ≤ pieces.length) : (pieces.take m).flatten.length < (pieces.take n).flatten.length := by
  have hsplit : pieces.take n = pieces.take m ++ (pieces.take n).drop m := by
    conv_lhs => rw [← List.take_append_drop m (pieces.take n), List.take_take, Nat.min_eq_left hlt.le]
  have hbetween : ((pieces.take n).drop m).length ≤ ((pieces.take n).drop m).flatten.length :=
    length_le_flatten fun s hs => h s (List.mem_of_mem_take (List.mem_of_mem_drop hs))
  rw [List.length_drop, List.length_take, Nat.min_eq_left hle] at hbetween
  rw [hsplit, List.flatten_append, List.length_append]
  omega

section

variable {lines : List Bytes} {texts : List (List Char)} {es : List Event}

/-- Octets and lines that words can count are counted as they are. -/
theorem IsLine.toNat {k : Nat} {e : Event} (h : IsLine lines texts k e) (hk : k < lines.length)
    (hne : ∀ s ∈ lines, s ≠ []) (hfit : lines.flatten.length < 2 ^ 64) :
    e.line.toNat = k + 1 ∧ e.offset.toNat = (lines.take (k + 1)).flatten.length := by
  have hlines := length_le_flatten hne
  have hoctets : (lines.take (k + 1)).flatten.length ≤ lines.flatten.length := by
    conv_rhs => rw [← List.take_append_drop (k + 1) lines, List.flatten_append, List.length_append]
    exact Nat.le_add_right _ _
  rw [h.line, h.offset]
  exact ⟨UInt64.toNat_ofNat_of_lt' (by omega : k + 1 < 2 ^ 64),
    UInt64.toNat_ofNat_of_lt' (by omega : (lines.take (k + 1)).flatten.length < 2 ^ 64)⟩

variable (hes : ∀ k e, es[k]? = some e → IsLine lines texts k e) (hle : es.length ≤ lines.length)
  (hne : ∀ s ∈ lines, s ≠ []) (hfit : lines.flatten.length < 2 ^ 64)
include hes hle hne hfit

theorem toNat_of_isLine {k : Nat} {e : Event} (he : es[k]? = some e) :
    e.line.toNat = k + 1 ∧ e.offset.toNat = (lines.take (k + 1)).flatten.length :=
  (hes k e he).toNat ((List.getElem?_eq_some_iff.1 he).1.trans_le hle) hne hfit

/-- **Each event counts more octets than those before it.** -/
theorem pairwise_offset_lt : es.Pairwise (fun e e' => e.offset < e'.offset) := by
  rw [List.pairwise_iff_getElem]
  intro k k' hk hk' hlt
  have hfirst := (toNat_of_isLine hes hle hne hfit (List.getElem?_eq_getElem hk)).2
  have hlater := (toNat_of_isLine hes hle hne hfit (List.getElem?_eq_getElem hk')).2
  rw [UInt64.lt_iff_toNat_lt, hfirst, hlater]
  exact length_flatten_take_lt hne (Nat.succ_lt_succ hlt) (hk'.trans_le hle)

/-- The event of the last line counts all octets. -/
theorem offset_getLast? (hall : es.length = lines.length) {e : Event} (he : e ∈ es.getLast?) :
    e.offset.toNat = lines.flatten.length := by
  rw [Option.mem_def, List.getLast?_eq_getElem?] at he
  have hpos : 0 < es.length := by
    have hlt := (List.getElem?_eq_some_iff.1 he).1
    omega
  rw [(toNat_of_isLine hes hle hne hfit he).2, Nat.sub_add_cancel hpos, hall, List.take_length]

end

end InputLines

end LogRelay
