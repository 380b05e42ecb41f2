import LogRelay.Event.Reading
import LogRelay.Proofs.Attempts
import LogRelay.Proofs.Json.Text

/-!
# Events are read as they were written

The written form of an event is a text of a document, and the event of this document is the event.  Others may
write it in other ways: the members of its object may stand in any order, and others may stand between them.

* `Dictionary.ofList_entries`: a dictionary is made up again from its entries;
* `Event.value`, `Event.toDoc`: the documents that a member and an event are written as;
* `Event.isText_writeAll`: writing events gives a text of their document;
* `Event.Presents`: the members of the objects that present an event;
* `Event.Draft.of`, `Event.Draft.addMembers_of`: the draft in which some members of an event were read, and
  the reading of further ones in any order;
* `Event.ofDoc_of_presents`, `Event.occurrences_of_ofDoc`: what presents an event gives it, and what gives one
  has every member that is needed and none twice;
* `Event.readAll_writeAll`: **events are read back in their order**.
-/

namespace LogRelay

/-! ### Dictionaries -/

namespace Dictionary

variable {α : Type}

/-- A key beyond all others goes to the end. -/
theorem upsertEntries_of_lt {k : String} {f : Option α → α} {l : List (String × α)}
    (h : ∀ p ∈ l, p.1 < k) : upsertEntries k f l = l ++ [(k, f none)] := by
  induction l with
  | nil => rfl
  | cons q rest ih =>
    obtain ⟨k', a⟩ := q
    have hlt : k' < k := h (k', a) List.mem_cons_self
    have hnlt : ¬ k < k' := fun h' => String.lt_irrefl k (String.lt_trans h' hlt)
    have hne : k ≠ k' := fun he => String.lt_irrefl k (he ▸ hlt)
    rw [upsertEntries, if_neg hnlt, if_neg hne, ih fun p hp => h p (List.mem_cons_of_mem _ hp)]
    rfl

theorem entries_foldl_insert {l : List (String × α)} (m : Dictionary α) (h : Ascending (m.entries ++ l)) :
    (l.foldl (fun m p => m.insert p.1 p.2) m).entries = m.entries ++ l := by
  induction l generalizing m with
  | nil => simp
  | cons p l ih =>
    have hm : (m.insert p.1 p.2).entries = m.entries ++ [p] :=
      upsertEntries_of_lt fun q hq =>
        (List.pairwise_append.1 h).2.2 q hq p List.mem_cons_self
    have happ : m.entries ++ [p] ++ l = m.entries ++ p :: l := List.append_assoc ..
    rw [List.foldl_cons, ih _ (by rw [hm, happ]; exact h), hm, happ]

/-- A dictionary is made up again from its entries. -/
theorem ofList_entries (m : Dictionary α) : ofList m.entries = m :=
  Dictionary.ext (entries_foldl_insert empty m.ascending)

end Dictionary

namespace Json

/-! ### Values -/

theorem Doc.addTexts_map (m : Dictionary String) (l : List (String × String)) :
    addTexts m (l.map fun p => (some p.1, .string (some p.2))) =
      .ok (l.foldl (fun m p => m.insert p.1 p.2) m) := by
  induction l generalizing m with
  | nil => rfl
  | cons p l ih => exact ih (m.insert p.1 p.2)

/-- The document of texts under their keys. -/
def textsDoc (m : Dictionary String) : Doc :=
  .object (m.entries.map fun p => (some p.1, .string (some p.2))) none

theorem toTexts_object (l : List (String × String)) :
    (Doc.object (l.map fun p => (some p.1, .string (some p.2))) none).toTexts
      = .ok (Dictionary.ofList l) := by
  simp only [Doc.toTexts, Doc.addTexts_map, Doc.ending, bind, Except.bind, pure, Except.pure]
  rfl

theorem skipFault?_of_isWhole {d : Doc} (h : d.IsWhole) : d.skipFault? = none := by
  cases d with
  | null | flag | number | string => rfl
  | list | object =>
    obtain ⟨rfl, -⟩ := h
    rfl
  | broken => exact h.elim

theorem spells_writeFields (m : Dictionary String) : Spells (writeFields m) (textsDoc m).tokens :=
  spells_object Prod.fst fun p _ => spells_string p.2

theorem toInteger_ofInt (t : Int64) : (Doc.number (some (.ofInt t.toInt))).toInteger = .ok t := by
  have hmax := t.toInt_lt
  unfold Numeral.ofInt
  split
  next =>
    rw [Int64.ofInt_toInt]
    rfl
  next hn =>
    have hlt : t.toInt.natAbs < 2 ^ 64 := by omega
    have hnat : (UInt64.ofNat t.toInt.natAbs).toNat = t.toInt.natAbs := UInt64.toNat_ofNat_of_lt' hlt
    have hint : (t.toInt.natAbs : Int) = t.toInt := by omega
    rw [Doc.toInteger, hnat, if_pos (by omega), ← Int64.ofInt_eq_ofNat, hint, Int64.ofInt_toInt]

end Json

/-! ### Events in writing -/

namespace Event

open Json

/-- The document of a member's value. -/
def value (e : Event) : Member → Doc
  | .source => .string (some e.source)
  | .offset => .number (some (.natural e.offset))
  | .line => .number (some (.natural e.line))
  | .timestamp => .number (some (.ofInt e.timestamp.toInt))
  | .text => .string (some e.text)
  | .fields => textsDoc e.fields

/-- A member's value in writing. -/
def writeValue (e : Event) : Member → Bytes
  | .source => Quoted.write e.source
  | .offset => writeNatural e.offset.toNat
  | .line => writeNatural e.line.toNat
  | .timestamp => writeInteger e.timestamp.toInt
  | .text => Quoted.write e.text
  | .fields => writeFields e.fields

/-- The members that have to be there. -/
def needed : List Member := [.source, .offset, .line, .timestamp, .text]

def written (e : Event) : List Member := needed ++ if e.fields.isEmpty then [] else [.fields]

theorem members_eq (e : Event) : e.members = e.written.map fun m => (m.name, e.writeValue m) := by
  unfold members written
  split <;> rfl

/-- The document that an event is written as. -/
def toDoc (e : Event) : Doc := .object (e.written.map fun m => (some m.name, e.value m)) none

/-- The document that events are written as. -/
def allToDoc (es : List Event) : Doc := .list (es.map toDoc) none

theorem spells_writeValue (e : Event) (m : Member) : Spells (e.writeValue m) (e.value m).tokens := by
  have hword : ∀ n : UInt64, Spells (writeNatural n.toNat) [.number (some (.natural n))] := by
    intro n
    have h := spells_natural (n := n.toNat) (Nat.le_of_lt_succ n.toNat_lt)
    rwa [UInt64.ofNat_toNat] at h
  have hmin := e.timestamp.le_toInt
  have hmax := e.timestamp.toInt_lt
  cases m with
  | source => exact spells_string e.source
  | offset => exact hword e.offset
  | line => exact hword e.line
  | timestamp => exact spells_integer (by omega) (by omega)
  | text => exact spells_string e.text
  | fields => exact spells_writeFields e.fields

theorem spells_write (e : Event) : Spells e.write e.toDoc.tokens := by
  rw [write, members_eq]
  exact spells_object Member.name fun m _ => e.spells_writeValue m

theorem spells_writeAll (es : List Event) : Spells (writeAll es) (allToDoc es).tokens :=
  spells_list fun e _ => spells_write e

theorem isWhole_value (e : Event) (m : Member) : (e.value m).IsWhole := by
  cases m with
  | source | offset | line | timestamp | text => trivial
  | fields =>
    refine ⟨rfl, Doc.membersWhole_iff.2 fun q hq => ?_⟩
    obtain ⟨_, -, rfl⟩ := List.mem_map.1 hq
    trivial

theorem isWhole_toDoc (e : Event) : e.toDoc.IsWhole := by
  refine ⟨rfl, Doc.membersWhole_iff.2 fun q hq => ?_⟩
  obtain ⟨m, -, rfl⟩ := List.mem_map.1 hq
  exact e.isWhole_value m

theorem isWhole_allToDoc (es : List Event) : (allToDoc es).IsWhole := by
  refine ⟨rfl, Doc.itemsWhole_iff.2 fun d hd => ?_⟩
  obtain ⟨e, -, rfl⟩ := List.mem_map.1 hd
  exact isWhole_toDoc e

/-- The written form of events is a text of their document. -/
theorem isText_writeAll (es : List Event) : (allToDoc es).IsText (writeAll es) :=
  (spells_writeAll es).isText (isWhole_allToDoc es)

/-! ### Objects that present an event -/

/-- The documents that stand for a member of an event.  The fields may be given in any order; of two with one
key the later counts. -/
def Holds (e : Event) (m : Member) (d : Doc) : Prop :=
  match m with
  | .fields => ∃ l : List (String × String),
    d = .object (l.map fun p => (some p.1, .string (some p.2))) none ∧ Dictionary.ofList l = e.fields
  | m => d = e.value m

/-- How many of the members of an object have the key of `m`. -/
def occurrences (m : Member) (members : List (Option String × Doc)) : Nat :=
  members.countP fun p => p.1 = some m.name

/-- The members of an object that presents an event, in any order; their keys are texts.  Every member that is
needed is there once, and so are the fields, unless they are left out because there are none; whatever else is
there has another key. -/
structure Presents (e : Event) (members : List (Option String × Doc)) : Prop where
  keys : ∀ p ∈ members, ∃ k, p.1 = some k
  values : ∀ p ∈ members, ∀ m, p.1 = some m.name → e.Holds m p.2
  once : ∀ m ∈ needed, occurrences m members = 1
  fields : occurrences .fields members ≤ 1
  omitted : occurrences .fields members = 0 → e.fields = ∅

theorem holds_value (e : Event) (m : Member) : e.Holds m (e.value m) := by
  cases m with
  | fields => exact ⟨e.fields.entries, rfl, e.fields.ofList_entries⟩
  | source | offset | line | timestamp | text => rfl

theorem occurrences_cons (m : Member) (key : Option String) (v : Doc)
    (members : List (Option String × Doc)) : occurrences m ((key, v) :: members)
      = occurrences m members + if key = some m.name then 1 else 0 := by
  rw [occurrences, List.countP_cons, occurrences]
  simp only [decide_eq_true_eq]

theorem name_injective {m m' : Member} (h : m.name = m'.name) : m = m' :=
  Option.some.inj (Member.ofName?_name m ▸ h ▸ Member.ofName?_name m')

theorem name_of_ofName? {k : String} {m : Member} (h : Member.ofName? k = some m) : m.name = k := by
  simpa using List.find?_some h

/-- A key that means nothing is the name of no member. -/
theorem ne_name_of_ofName? {k : String} (h : Member.ofName? k = none) (m : Member) : k ≠ m.name := by
  rintro rfl
  simp [Member.ofName?_name] at h

/-- A member that is needed, or else the fields. -/
theorem mem_needed_or (m : Member) : m ∈ needed ∨ m = .fields := by
  cases m <;> decide

theorem Presents.le_one {e : Event} {members : List (Option String × Doc)} (h : e.Presents members)
    (m : Member) : occurrences m members ≤ 1 := by
  rcases mem_needed_or m with hm | rfl
  · exact Nat.le_of_eq (h.once m hm)
  · exact h.fields

/-! ### Events from documents -/

namespace Draft

/-- The draft in which the members `ms` of an event were read. -/
def of (e : Event) (ms : List Member) : Draft where
  source := if .source ∈ ms then some e.source else none
  offset := if .offset ∈ ms then some e.offset else none
  line := if .line ∈ ms then some e.line else none
  timestamp := if .timestamp ∈ ms then some e.timestamp else none
  text := if .text ∈ ms then some e.text else none
  fields := if .fields ∈ ms then some e.fields else none

theorem has_of (e : Event) (ms : List Member) (m : Member) : (of e ms).has m = decide (m ∈ ms) := by
  cases m <;> simp [of, has] <;> split <;> simp_all

/-- A member that was not read before is read. -/
theorem add_of {e : Event} {ms : List Member} {m : Member} {v : Doc} (h : m ∉ ms) (hv : e.Holds m v) :
    (of e ms).add m v = .ok (of e (m :: ms)) := by
  unfold add
  rw [has_of, if_neg (by simpa using h)]
  cases m with
  | fields =>
    obtain ⟨l, rfl, hl⟩ := hv
    simp [of, toTexts_object, hl, Except.map]
  | source | offset | line | timestamp | text =>
    obtain rfl := hv
    simp [value, of, Doc.toText, Doc.toNatural, toInteger_ofInt, Except.map]

theorem addMember_name (d : Draft) (m : Member) (v : Doc) : d.addMember (some m.name) v = d.add m v := by
  simp only [addMember, Doc.keyText, Member.ofName?_name, bind, Except.bind]

/-- A value under a key that means nothing is passed over. -/
theorem addMember_other (d : Draft) {k : String} {v : Doc} (hk : Member.ofName? k = none)
    (hv : v.IsWhole) : d.addMember (some k) v = .ok d := by
  simp only [addMember, Doc.keyText, hk, Doc.skip, skipFault?_of_isWhole hv, bind, Except.bind, pure,
    Except.pure]

/-- Members that were not read before are read, in whatever order they stand and whatever else stands
between them. -/
theorem addMembers_of {e : Event} {ms : List Member} {members : List (Option String × Doc)}
    (hkeys : ∀ p ∈ members, ∃ k, p.1 = some k) (hwhole : Doc.MembersWhole members)
    (hvalues : ∀ p ∈ members, ∀ m, p.1 = some m.name → e.Holds m p.2)
    (honce : ∀ m, occurrences m members ≤ 1) (hfresh : ∀ m ∈ ms, occurrences m members = 0) :
    ∃ ms', addMembers (of e ms) members = .ok (of e ms') ∧
      ∀ m, m ∈ ms' ↔ m ∈ ms ∨ 0 < occurrences m members := by
  induction members generalizing ms with
  | nil => exact ⟨ms, rfl, by simp [occurrences]⟩
  | cons p members ih =>
    obtain ⟨key, v⟩ := p
    obtain ⟨⟨k, rfl⟩, hmore⟩ := List.forall_mem_cons.1 hkeys
    obtain ⟨hv, hmoreValues⟩ := List.forall_mem_cons.1 hvalues
    simp only [occurrences_cons] at honce hfresh ⊢
    rw [addMembers]
    cases hk : Member.ofName? k with
    | none =>
      have hother := ne_name_of_ofName? hk
      simp only [Option.some.injEq, hother, if_false, Nat.add_zero] at honce hfresh ⊢
      rw [addMember_other _ hk hwhole.1]
      exact ih hmore hwhole.2 hmoreValues honce hfresh
    | some m =>
      obtain rfl := name_of_ofName? hk
      have hm : m ∉ ms := fun hm => by simpa using hfresh m hm
      have hrest : ∀ m' ∈ m :: ms, occurrences m' members = 0 := by
        intro m' hm'
        rcases List.mem_cons.1 hm' with rfl | hm'
        · have hm := honce m'
          simp only [if_true] at hm
          omega
        · have hm := hfresh m' hm'
          omega
      obtain ⟨ms', hread, hms'⟩ := ih hmore hwhole.2 hmoreValues
        (fun m' => Nat.le_trans (Nat.le_add_right _ _) (honce m')) hrest
      refine ⟨ms', ?_, fun m' => ?_⟩
      · rw [addMember_name, add_of hm (hv m rfl)]
        exact hread
      · rw [hms', List.mem_cons]
        by_cases hmm : m = m'
        · simp [hmm]
        · have hne : m.name ≠ m'.name := fun h => hmm (name_injective h)
          simp [hne, Ne.symm hmm]

/-- The draft gives the event once all that it needs was read. -/
theorem toEvent_of (e : Event) {ms : List Member} (h : ∀ m ∈ needed, m ∈ ms)
    (hf : .fields ∈ ms ∨ e.fields = ∅) : (of e ms).toEvent = .ok e := by
  have hfields : (of e ms).fields.getD ∅ = e.fields := by
    by_cases hm : Member.fields ∈ ms
    · simp [of, hm]
    · simp [of, hm, hf.resolve_left hm]
  have hsource : (of e ms).source = some e.source := if_pos (h .source (by decide))
  have hoffset : (of e ms).offset = some e.offset := if_pos (h .offset (by decide))
  have hline : (of e ms).line = some e.line := if_pos (h .line (by decide))
  have htimestamp : (of e ms).timestamp = some e.timestamp := if_pos (h .timestamp (by decide))
  have htext : (of e ms).text = some e.text := if_pos (h .text (by decide))
  simp only [toEvent, hsource, hoffset, hline, htimestamp, htext, hfields, need, bind, Except.bind]
  rfl

/-- A member that is read was not read before, and no other one is read with it. -/
theorem has_of_add {d d' : Draft} {m : Member} {v : Doc} (h : d.add m v = .ok d') (m' : Member) :
    (d'.has m').toNat = (d.has m').toNat + if m = m' then 1 else 0 := by
  unfold add at h
  split at h
  next => cases h
  next hhas =>
    have hhas : d.has m = false := by simpa using hhas
    have hread {α : Type} {x : Except ReadFault α} {next : α → Draft} (h : x.map next = .ok d')
        (hnext : ∀ a, ((next a).has m').toNat = (d.has m').toNat + if m = m' then 1 else 0) :
        (d'.has m').toNat = (d.has m').toNat + if m = m' then 1 else 0 := by
      cases x with
      | error => cases h
      | ok a =>
        obtain rfl := Except.ok.inj h
        exact hnext a
    cases m
    all_goals
      refine hread h fun a => ?_
      cases m' <;> first | rfl | (rw [hhas]; rfl)

theorem has_of_addMember {d d' : Draft} {key : Option String} {v : Doc} (h : d.addMember key v = .ok d')
    (m : Member) : (d'.has m).toNat = (d.has m).toNat + if key = some m.name then 1 else 0 := by
  cases key with
  | none => cases h
  | some k =>
    cases hk : Member.ofName? k with
    | some m' =>
      obtain rfl := name_of_ofName? hk
      rw [addMember_name] at h
      rw [has_of_add h m]
      by_cases hm : m' = m
      · rw [if_pos hm, if_pos (by rw [hm])]
      · rw [if_neg hm, if_neg fun he => hm (name_injective (Option.some.inj he))]
    | none =>
      have hother := ne_name_of_ofName? hk m
      simp only [addMember, Doc.keyText, bind_eq_ok_iff, Except.ok.injEq, exists_eq_left', hk] at h
      obtain ⟨-, -, h⟩ := h
      obtain rfl := Except.ok.inj h
      simp [hother]

/-- Of the members that are read, no known one is there twice. -/
theorem has_of_addMembers {d d' : Draft} {members : List (Option String × Doc)}
    (h : addMembers d members = .ok d') (m : Member) :
    (d'.has m).toNat = (d.has m).toNat + occurrences m members := by
  induction members generalizing d with
  | nil =>
    obtain rfl := Except.ok.inj h
    rfl
  | cons p members ih =>
    obtain ⟨key, v⟩ := p
    rw [addMembers, bind_eq_ok_iff] at h
    obtain ⟨d₁, hadd, h⟩ := h
    rw [ih h, has_of_addMember hadd, occurrences_cons]
    omega

/-- A draft that gives an event has all that is needed. -/
theorem has_of_toEvent {d : Draft} {e : Event} (h : d.toEvent = .ok e) : ∀ m ∈ needed, d.has m = true := by
  have hneed {α : Type} {m : Member} {x : Option α} {a : α} (h : need m x = .ok a) : x.isSome = true := by
    cases x with
    | none => cases h
    | some => rfl
  simp only [toEvent, bind_eq_ok_iff] at h
  obtain ⟨_, hsource, _, hoffset, _, hline, _, htimestamp, _, htext, -⟩ := h
  intro m hm
  cases m with
  | source => exact hneed hsource
  | offset => exact hneed hoffset
  | line => exact hneed hline
  | timestamp => exact hneed htimestamp
  | text => exact hneed htext
  | fields => exact absurd hm (by decide)

end Draft

/-- An object that gives an event has each known member at most once, and every one that is needed. -/
theorem occurrences_of_ofDoc {e : Event} {members : List (Option String × Doc)} {cut : Option Json.Cut}
    (h : ofDoc (.object members cut) = .ok e) :
    (∀ m, occurrences m members ≤ 1) ∧ ∀ m ∈ needed, occurrences m members = 1 := by
  simp only [ofDoc, bind_eq_ok_iff] at h
  obtain ⟨d, hread, -, -, hevent⟩ := h
  have hhas (m : Member) : (d.has m).toNat = occurrences m members := by
    have hnone : ({} : Draft).has m = false := by cases m <;> rfl
    rw [Draft.has_of_addMembers hread m, hnone]
    exact Nat.zero_add _
  refine ⟨fun m => hhas m ▸ Bool.toNat_le _, fun m hm => ?_⟩
  rw [← hhas, Draft.has_of_toEvent hevent m hm]
  rfl

/-- **An object that presents an event gives the event.** -/
theorem ofDoc_of_presents {e : Event} {members : List (Option String × Doc)} (h : e.Presents members)
    (hwhole : Doc.MembersWhole members) : ofDoc (.object members none) = .ok e := by
  have hfresh : ∀ m ∈ ([] : List Member), occurrences m members = 0 := by simp
  obtain ⟨ms, hread, hms⟩ := Draft.addMembers_of h.keys hwhole h.values h.le_one hfresh
  have hneeded : ∀ m ∈ needed, m ∈ ms := fun m hm => (hms m).2 (.inr (by rw [h.once m hm]; decide))
  have hfields : .fields ∈ ms ∨ e.fields = ∅ := by
    by_cases hnone : occurrences .fields members = 0
    · exact .inr (h.omitted hnone)
    · exact .inl ((hms _).2 (.inr (Nat.pos_of_ne_zero hnone)))
  have hempty : ({} : Draft) = Draft.of e [] := rfl
  simp only [ofDoc, hempty, hread, bind, Except.bind, Doc.ending]
  exact Draft.toEvent_of e hneeded hfields

/-- The document of an event presents it. -/
theorem presents_written (e : Event) : e.Presents (e.written.map fun m => (some m.name, e.value m)) := by
  have hcount (m : Member) : occurrences m (e.written.map fun m => (some m.name, e.value m))
      = e.written.count m := by
    rw [occurrences, List.countP_map, List.count]
    refine List.countP_congr fun m' _ => ?_
    simp only [Function.comp_apply, Option.some.injEq, decide_eq_true_eq, beq_iff_eq]
    exact ⟨fun h => name_injective h, fun h => h ▸ rfl⟩
  have hempty (h : e.fields.isEmpty = true) : e.fields = ∅ := Dictionary.ext (List.isEmpty_iff.1 h)
  refine ⟨fun p hp => ?_, fun p hp m hm => ?_, fun m hm => ?_, ?_, fun hnone => ?_⟩
  · obtain ⟨m, -, rfl⟩ := List.mem_map.1 hp
    exact ⟨_, rfl⟩
  · obtain ⟨m', -, rfl⟩ := List.mem_map.1 hp
    obtain rfl := name_injective (Option.some.inj hm)
    exact e.holds_value m'
  all_goals simp only [hcount, written] at *
  · revert m
    split <;> decide
  · split <;> decide
  · refine hempty (Decidable.byContradiction fun hsome => ?_)
    rw [if_neg hsome] at hnone
    revert hnone
    decide

/-- The document of an event gives the event. -/
theorem ofDoc_toDoc (e : Event) : ofDoc e.toDoc = .ok e :=
  ofDoc_of_presents e.presents_written (isWhole_toDoc e).2

/-! ### Events from texts -/

section

variable {items : List Doc} {text : Bytes}

/-- Reading a text is reading its document. -/
theorem readAll_of_isText (h : (Doc.list items none).IsText text) : readAll text = items.mapM ofDoc := by
  rw [readAll, h.read]
  simp only [allOfDoc, Doc.ending, bind, Except.bind]
  cases items.mapM ofDoc <;> rfl

theorem readAll_of_presents {es : List Event} {objects : List (List (Option String × Doc))}
    (htext : (Doc.list (objects.map (.object · none)) none).IsText text)
    (h : List.Forall₂ Presents es objects) : readAll text = .ok es := by
  have hwhole : ∀ members ∈ objects, Doc.MembersWhole members := fun members hm =>
    (Doc.itemsWhole_iff.1 htext.isWhole.2 _ (List.mem_map_of_mem hm)).2
  rw [readAll_of_isText htext, mapM_eq_ok_iff, List.forall₂_map_left_iff]
  clear htext
  induction h with
  | nil => exact .nil
  | cons hpresents _ ih =>
    obtain ⟨hmembers, hrest⟩ := List.forall_mem_cons.1 hwhole
    exact .cons (ofDoc_of_presents hpresents hmembers) (ih hrest)

/-- A text with an object in which a known member is there twice, or one that is needed is not there, gives
no events. -/
theorem exists_fault_of_isText {members : List (Option String × Doc)}
    (htext : (Doc.list items none).IsText text) (hmem : .object members none ∈ items)
    (hwrong : (∃ m ∈ needed, occurrences m members = 0) ∨ ∃ m, 2 ≤ occurrences m members) :
    ∃ f, readAll text = .error f := by
  cases hread : readAll text with
  | error f => exact ⟨f, rfl⟩
  | ok es =>
    rw [readAll_of_isText htext] at hread
    obtain ⟨e, he⟩ := exists_of_mapM_eq_ok hread hmem
    obtain ⟨honce, hneeded⟩ := occurrences_of_ofDoc he
    rcases hwrong with ⟨m, hm, hnone⟩ | ⟨m, htwice⟩
    · exact absurd (hneeded m hm) (by omega)
    · exact absurd (honce m) (by omega)

end

/-- **Events are read back in their order.** -/
theorem readAll_writeAll (es : List Event) : readAll (writeAll es) = .ok es := by
  rw [readAll_of_isText (isText_writeAll es), mapM_eq_ok_iff, List.forall₂_map_left_iff]
  exact List.forall₂_same.2 fun e _ => ofDoc_toDoc e

end Event

end LogRelay
