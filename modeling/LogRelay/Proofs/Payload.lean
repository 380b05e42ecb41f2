import LogRelay.Payload
import LogRelay.Proofs.Event
import LogRelay.Proofs.Json.Text
import LogRelay.Proofs.Zlib.Stream

/-!
# A payload gives its events back

Making a payload cannot fail: `Payload.encode` has a payload for every list of events.  What was compressed
is the text of the events, octet for octet, and it is read as the events.  Others may lay the text out as they
like, as long as it presents the events.

* `Payload.decodes_compressed`: text and events come back unchanged from any compressor whose streams come out
  as they went in;
* `Payload.round_trip`: **the text and the events come back unchanged**;
* `Payload.decodes_presented`: **every text that presents events gives them**, and a text in which a member
  is missing, or is there twice, gives none.
-/

namespace LogRelay.Payload

theorem decompress_of_inflate {payload text : Bytes} (h : Zlib.inflate payload = .ok text) :
    decompress payload = .ok text := by
  rw [decompress, h]
  rfl

/-- What a payload holds is read from its text. -/
theorem decode_eq {payload text : Bytes} (h : decompress payload = .ok text) :
    decode payload = (Event.readAll text).mapError .deserialize := by
  rw [decode, h]
  rfl

theorem decode_of_decompress {payload text : Bytes} {es : List Event}
    (h : decompress payload = .ok text) (hr : Event.readAll text = .ok es) : decode payload = .ok es := by
  rw [decode_eq h, hr]
  rfl

/-- It does not matter who has compressed the text, and how. -/
theorem decodes_compressed {compress : Bytes → Bytes}
    (h : ∀ text, Zlib.inflate (compress text) = .ok text) (es : List Event) :
    decompress (compress (Event.writeAll es)) = .ok (Event.writeAll es) ∧
      decode (compress (Event.writeAll es)) = .ok es := by
  have htext := decompress_of_inflate (h (Event.writeAll es))
  exact ⟨htext, decode_of_decompress htext (Event.readAll_writeAll es)⟩

/-- **The text and the events come back unchanged**, whatever the events hold. -/
theorem round_trip (es : List Event) :
    decompress (encode es) = .ok (Event.writeAll es) ∧ decode (encode es) = .ok es :=
  decodes_compressed Zlib.inflate_deflate es

/-! ### Texts from elsewhere -/

section

open Json Event

/-- **Every text that presents events gives them.**  A payload is any stream that comes out as a text, and there
is one for every text.  Let the text be a list of objects, each of which presents an event; its members may
stand in any order and with any space, and there may be any others with other keys and any values.  Then the
payload gives these events in their order.  But if a text is a list in which some object lacks a member that
is needed, or has a known one twice, then the payload gives no events and the fault is one of reading. -/
theorem decodes_presented :
    (∀ text, decompress (Zlib.deflate text) = .ok text) ∧
    ∀ payload text, decompress payload = .ok text →
      (∀ es objects, (Doc.list (objects.map (.object · none)) none).IsText text →
        List.Forall₂ Presents es objects → decode payload = .ok es) ∧
      ∀ items members, (Doc.list items none).IsText text → .object members none ∈ items →
        (∃ m ∈ needed, occurrences m members = 0) ∨ (∃ m, 2 ≤ occurrences m members) →
        ∃ f, decode payload = .error (.deserialize f) := by
  refine ⟨fun text => decompress_of_inflate (Zlib.inflate_deflate text), fun payload text hpayload => ⟨?_, ?_⟩⟩
  · intro es objects htext hpresents
    exact decode_of_decompress hpayload (readAll_of_presents htext hpresents)
  · intro items members htext hmem hwrong
    obtain ⟨f, hf⟩ := exists_fault_of_isText htext hmem hwrong
    exact ⟨f, by rw [decode_eq hpayload, hf]; rfl⟩

/-- Keys with their values and the texts of these: the members of an event out of their order, with space, no
fields, and one member of another key whose value holds a string without a text. -/
def shuffled : List (String × Doc × Bytes) :=
  [("x", .list [.null, .string (Quoted.text? [.hex 0xD800])] none, Utf8.ofString " [null,\n\"\\ud800\"]"),
    ("text", .string (some "a"), Utf8.ofString "\t\"\\u0061\""),
    ("offset", .number (some (.ofInt 5)), Utf8.ofString "5"),
    ("fields", .object [] none, Utf8.ofString "\x7b \x7d"),
    ("line", .number (some (.ofInt 2)), Utf8.ofString "  2"),
    ("timestamp", .number (some (.ofInt (-3))), Utf8.ofString "-3"),
    ("source", .string (some "s"), Utf8.ofString "\"s\"")]

theorem spells_shuffled : ∀ a ∈ shuffled, a.2.1.IsWhole ∧ Spells a.2.2 a.2.1.tokens := by
  have hunit : Row Quoted.PieceForm [.hex 0xD800] [92, 117, 100, 56, 48, 48] :=
    .cons (Quoted.PieceForm.hex rfl) .nil
  have hletter : Row Quoted.CharForm "a".toList [92, 117, 48, 48, 54, 49] :=
    .cons (Quoted.CharForm.hex rfl) .nil
  have hx := Spells.spaced [32] (by decide) (.cons .listOpen (.cons .null (.cons .comma
    (.spaced [10] (by decide) (.cons (.string hunit) Token.Form.listClose.spells)))))
  have htext := Spells.spaced [9] (by decide) (Token.Form.text hletter).spells
  have hfields := Spells.cons .objectOpen
    (.spaced [32] (by decide) Token.Form.objectClose.spells)
  have hnumber {i : Int} (h : 0 ≤ i + 3 ∧ i < 6) : Spells (writeInteger i) [.number (some (.ofInt i))] :=
    spells_integer (by omega) (by omega)
  have hline := Spells.spaced [32, 32] (by decide) (hnumber (i := 2) (by decide))
  simp only [shuffled, List.forall_mem_cons]
  exact ⟨⟨⟨rfl, trivial, trivial, trivial⟩, hx⟩, ⟨trivial, htext⟩, ⟨trivial, hnumber (i := 5) (by decide)⟩,
    ⟨⟨rfl, trivial⟩, hfields⟩, ⟨trivial, hline⟩, ⟨trivial, hnumber (i := -3) (by decide)⟩,
    ⟨trivial, spells_string "s"⟩, by simp⟩

/-- The members of an object, without their texts. -/
def untold (as : List (String × Doc × Bytes)) : List (Option String × Doc) :=
  as.map fun a => (some a.1, a.2.1)

/-- A list with an object of some members, and a line end behind it. -/
def laidOut (as : List (String × Doc × Bytes)) : Bytes :=
  writeList [writeObject (as.map fun a => (a.1, a.2.2))] ++ [10]

theorem isText_laidOut {as : List (String × Doc × Bytes)} (h : as ⊆ shuffled) :
    (Doc.list [.object (untold as) none] none).IsText (laidOut as) := by
  refine .mk ⟨rfl, ⟨rfl, Doc.membersWhole_iff.2 fun p hp => ?_⟩, trivial⟩ ?_ (by decide)
  · obtain ⟨a, ha, rfl⟩ := List.mem_map.1 hp
    exact (spells_shuffled a (h ha)).1
  · have hobject : ∀ as' ∈ [as], Spells (writeObject (as'.map fun a => (a.1, a.2.2)))
        (Doc.object (untold as') none).tokens :=
      List.forall_mem_singleton.2 (spells_object Prod.fst fun a ha => (spells_shuffled a (h ha)).2)
    exact spells_list hobject

/-- The members present an event, whatever order they stand in; without the text they do not. -/
theorem decodes_presented_shuffled :
    decode (Zlib.deflate (laidOut shuffled))
        = .ok [{ source := "s", offset := 5, line := 2, timestamp := -3, text := "a" }] ∧
      ∃ f, decode (Zlib.deflate (laidOut (shuffled.eraseIdx 1))) = .error (.deserialize f) := by
  obtain ⟨hdeflate, hpresented⟩ := decodes_presented
  obtain ⟨hpresents, -⟩ := hpresented _ _ (hdeflate (laidOut shuffled))
  obtain ⟨-, hwrong⟩ := hpresented _ _ (hdeflate (laidOut (shuffled.eraseIdx 1)))
  refine ⟨hpresents _ [untold shuffled] (isText_laidOut fun _ => id) (.cons ?_ .nil), ?_⟩
  · refine ⟨fun p hp => ?_, fun p hp m hm => ?_, by decide, by decide, fun _ => rfl⟩
    · obtain ⟨a, -, rfl⟩ := List.mem_map.1 hp
      exact ⟨_, rfl⟩
    · simp only [untold, shuffled, List.map_cons, List.map_nil, List.mem_cons, List.not_mem_nil,
        or_false] at hp
      rcases hp with rfl | rfl | rfl | rfl | rfl | rfl | rfl <;> cases m <;>
        first | exact absurd hm (by decide) | rfl | exact ⟨[], rfl, rfl⟩
  · exact hwrong _ (untold (shuffled.eraseIdx 1))
      (isText_laidOut (List.eraseIdx_subset)) (List.mem_singleton_self _) (.inl ⟨.text, by decide, by decide⟩)

end

end LogRelay.Payload
