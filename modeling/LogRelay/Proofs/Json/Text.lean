import LogRelay.Proofs.Json.Doc
import Mathlib.Data.List.Chain

/-!
# The texts of JSON documents

A document has many texts: its tokens stand in a row, with any space around them, and each of them is
written in one of the ways that there are for it.  Whichever text it is, it is read as the document.

* `Token.Form`: the ways to write a token;
* `Spells bs ts`, `Doc.IsText d bs`: `bs` is a text of the tokens `ts`, or of the document `d`;
* `spells_string`, `spells_integer`, `spells_list`, `spells_object`: the texts that are written here;
* `Token.Form.tokens`, `Spells.tokens`: tokens are told apart, however they are written;
* `Doc.IsText.read`: **every text of a document is read as this document**.
-/

namespace LogRelay.Json

/-! ### Texts -/

/-- The ways to write a token.  A number is given by its numeral, and a whole one also by what it is; a string
is given by its parts, and one that has a text also by this text. -/
inductive Token.Form : Token → Bytes → Prop where
  | listOpen : Form .listOpen [91]
  | listClose : Form .listClose [93]
  | objectOpen : Form .objectOpen [123]
  | objectClose : Form .objectClose [125]
  | comma : Form .comma [44]
  | colon : Form .colon [58]
  | null : Form .null [110, 117, 108, 108]
  | yes : Form (.flag true) [116, 114, 117, 101]
  | no : Form (.flag false) [102, 97, 108, 115, 101]
  | integer {i : Int} (hmin : -0x8000000000000000 ≤ i) (hmax : i ≤ 0xFFFFFFFFFFFFFFFF) :
      Form (.number (some (.ofInt i))) (writeInteger i)
  | numeral {x : Lexeme} {bs : Bytes} (h : x.Form bs) : Form (.number x.value?) bs
  | text {s : String} {bs : Bytes} (h : Row Quoted.CharForm s.toList bs) :
      Form (.string (some s)) (34 :: (bs ++ [34]))
  | string {ps : List Quoted.Piece} {bs : Bytes} (h : Row Quoted.PieceForm ps bs) :
      Form (.string (Quoted.text? ps)) (34 :: (bs ++ [34]))

/-- Space: blanks, tabulators and line ends. -/
def Blank (bs : Bytes) : Prop := ∀ b ∈ bs, b = 32 ∨ b = 9 ∨ b = 10 ∨ b = 13

instance (bs : Bytes) : Decidable (Blank bs) :=
  List.decidableBAll _ bs

/-- A token with some space before it. -/
inductive Token.Spaced (t : Token) : Bytes → Prop where
  | mk {space bs : Bytes} (hspace : Blank space) (h : t.Form bs) : Spaced t (space ++ bs)

/-- `bs` is a text of some tokens: they stand in their order, with any space before each. -/
abbrev Spells (bs : Bytes) (ts : List Token) : Prop := Row Token.Spaced ts bs

/-- `bs` is a text of a document: a text of its tokens, with any space behind it. -/
inductive Doc.IsText (d : Doc) : Bytes → Prop where
  | mk {bs space : Bytes} (hwhole : d.IsWhole) (h : Spells bs d.tokens) (hspace : Blank space) :
      IsText d (bs ++ space)

/-! ### Texts that are written here -/

theorem Row.append {α : Type} {form : α → Bytes → Prop} {as as' : List α} {bs bs' : Bytes}
    (h : Row form as bs) (h' : Row form as' bs') : Row form (as ++ as') (bs ++ bs') := by
  induction h with
  | nil => exact h'
  | cons ha _ ih =>
    rw [List.append_assoc]
    exact .cons ha ih

theorem Spells.cons {t : Token} {bs rest : Bytes} {ts : List Token} (h : t.Form bs)
    (hrest : Spells rest ts) : Spells (bs ++ rest) (t :: ts) := by
  have hnone : Blank [] := by decide
  exact Row.cons (.mk hnone h) hrest

theorem Token.Form.spells {t : Token} {bs : Bytes} (h : t.Form bs) : Spells bs [t] :=
  List.append_nil bs ▸ Spells.cons h .nil

/-- There may be more space in front. -/
theorem Spells.spaced {bs : Bytes} {t : Token} {ts : List Token} (space : Bytes) (hspace : Blank space)
    (h : Spells bs (t :: ts)) : Spells (space ++ bs) (t :: ts) := by
  obtain - | ⟨⟨hspace', hform⟩, hrest⟩ := h
  rw [← List.append_assoc, ← List.append_assoc]
  exact Row.cons (.mk (fun b hb => (List.mem_append.1 hb).elim (hspace b) (hspace' b)) hform) hrest

theorem Spells.isText {d : Doc} {bs : Bytes} (h : Spells bs d.tokens) (hwhole : d.IsWhole) :
    d.IsText bs := by
  have hnone : Blank [] := by decide
  exact List.append_nil bs ▸ .mk hwhole h hnone

theorem form_write (s : String) : Token.Form (.string (some s)) (Quoted.write s) :=
  .text (Quoted.row_writeChar s.toList)

theorem spells_string (s : String) : Spells (Quoted.write s) [.string (some s)] := (form_write s).spells

theorem spells_integer {i : Int} (hmin : -0x8000000000000000 ≤ i) (hmax : i ≤ 0xFFFFFFFFFFFFFFFF) :
    Spells (writeInteger i) [.number (some (.ofInt i))] := (Token.Form.integer hmin hmax).spells

theorem spells_natural {n : Nat} (h : n ≤ 0xFFFFFFFFFFFFFFFF) :
    Spells (writeNatural n) [.number (some (.natural (UInt64.ofNat n)))] := by
  have hi : writeInteger n = writeNatural n := if_neg (by omega)
  have hv : Numeral.ofInt n = .natural (UInt64.ofNat n) := if_neg (by omega)
  rw [← hi, ← hv]
  exact spells_integer (by omega) (by omega)

theorem Spells.member {value : Bytes} {ts : List Token} (h : Spells value ts) (k : String) :
    Spells (writeMember k value) (.string (some k) :: .colon :: ts) :=
  Spells.cons (form_write k) (Spells.cons .colon h)

variable {α : Type} {text : α → Bytes} {ts : α → List Token}

theorem spells_commaSeparated : ∀ {as : List α}, (∀ a ∈ as, Spells (text a) (ts a)) →
    Spells (commaSeparated (as.map text)) (joined (as.map ts))
  | [], _ => .nil
  | [a], h => h a List.mem_cons_self
  | a :: _ :: _, h =>
    Row.append (h a List.mem_cons_self)
      (Spells.cons .comma (spells_commaSeparated fun b hb => h b (List.mem_cons_of_mem _ hb)))

theorem spells_list {as : List α} {item : α → Doc} (h : ∀ a ∈ as, Spells (text a) (item a).tokens) :
    Spells (writeList (as.map text)) (Doc.list (as.map item) none).tokens := by
  rw [Doc.tokens, Doc.itemTokens_eq, List.map_map]
  exact Row.append (Spells.cons .listOpen (spells_commaSeparated h)) Token.Form.listClose.spells

theorem spells_object {as : List α} {value : α → Doc} (key : α → String)
    (h : ∀ a ∈ as, Spells (text a) (value a).tokens) :
    Spells (writeObject (as.map fun a => (key a, text a)))
      (Doc.object (as.map fun a => (some (key a), value a)) none).tokens := by
  have hmembers := spells_commaSeparated fun a ha => (h a ha).member (key a)
  rw [writeObject, Doc.tokens, Doc.memberTokens_eq, List.map_map, List.map_map]
  exact Row.append (Spells.cons .objectOpen hmembers) Token.Form.objectClose.spells

/-! ### Telling tokens apart -/

/-- Whether a token is a number, which ends only where something else begins. -/
def Token.IsNumber : Token → Prop
  | .number _ => True
  | _ => False

theorem tokens_blank {space : Bytes} (h : Blank space) (rest : Bytes) :
    tokens (space ++ rest) = tokens rest := by
  induction space with
  | nil => rfl
  | cons b space ih =>
    have hb : isSpace b = true := by
      rcases h b List.mem_cons_self with rfl | rfl | rfl | rfl <;> rfl
    rw [List.cons_append, tokens, if_pos hb]
    exact ih fun b hb => h b (List.mem_cons_of_mem _ hb)

/-- Space keeps a numeral from going on. -/
theorem Blank.loose {space rest : Bytes} (h : Blank space) (hrest : Loose rest) : Loose (space ++ rest) := by
  cases space with
  | nil => exact hrest
  | cons b space =>
    rcases h b List.mem_cons_self with rfl | rfl | rfl | rfl
    all_goals exact loose_cons (by decide) _

theorem tokens_quoted {bs : Bytes} {t : Token} (h : ∀ rest, lexString (bs ++ 34 :: rest) = ⟨t, rest⟩)
    (rest : Bytes) : tokens (34 :: (bs ++ [34]) ++ rest) = t :: tokens rest := by
  have hlex : lex 34 (bs ++ 34 :: rest) = ⟨t, rest⟩ := h rest
  rw [List.cons_append, List.append_assoc, List.singleton_append, tokens_cons rfl, hlex]

/-- **A token is told from what follows it**, however it is written; only a numeral has to end. -/
theorem Token.Form.tokens {t : Token} {bs rest : Bytes} (h : t.Form bs)
    (hrest : t.IsNumber → Loose rest) : tokens (bs ++ rest) = t :: tokens rest := by
  cases h with
  | listOpen | listClose | objectOpen | objectClose | comma | colon | null | yes | no =>
    exact tokens_cons rfl _
  | integer hmin hmax =>
    rw [← Lexeme.value?_writeInteger hmin hmax]
    exact tokens_form (Lexeme.form_writeInteger _) (hrest trivial)
  | numeral h => exact tokens_form h (hrest trivial)
  | text h => exact tokens_quoted (Quoted.lexString_chars h) rest
  | string h => exact tokens_quoted (Quoted.lexString_pieces h) rest

/-- What is no number keeps a numeral in front of it from going on. -/
theorem Token.Form.loose {t : Token} {bs : Bytes} (h : t.Form bs) (ht : ¬ t.IsNumber) (rest : Bytes) :
    Loose (bs ++ rest) := by
  cases h with
  | listOpen | listClose | objectOpen | objectClose | comma | colon | null | yes | no | text | string =>
    exact loose_cons (by decide) _
  | integer | numeral => exact absurd trivial ht

/-- No two numbers stand next to each other. -/
def Apart (ts : List Token) : Prop := ts.IsChain fun t u => ¬ (t.IsNumber ∧ u.IsNumber)

/-- **Tokens are told apart** as long as no two numbers stand next to each other. -/
theorem Spells.tokens {bs rest : Bytes} {ts : List Token} (h : Spells bs ts) (hts : Apart ts)
    (hrest : Loose rest) : tokens (bs ++ rest) = ts ++ tokens rest := by
  induction h with
  | nil => rfl
  | @cons t ts bs more ht hmore ih =>
    obtain ⟨hspace, hform⟩ := ht
    have hloose (hnumber : t.IsNumber) : Loose (more ++ rest) := by
      cases hmore with
      | nil => exact hrest
      | cons hu =>
        obtain ⟨hspace, hform⟩ := hu
        have hu := fun hu => (List.isChain_cons_cons.1 hts).1 ⟨hnumber, hu⟩
        simp only [List.append_assoc]
        exact hspace.loose (hform.loose hu _)
    simp only [List.append_assoc]
    rw [tokens_blank hspace, hform.tokens hloose, ih hts.of_cons, List.cons_append]

/-! ### The tokens of a document -/

theorem apart_cons {t : Token} {us : List Token} (ht : ¬ t.IsNumber) (hus : Apart us) :
    Apart (t :: us) :=
  List.isChain_cons.2 ⟨fun _ _ h => ht h.1, hus⟩

/-- What is no number may stand between numbers. -/
theorem apart_append_cons {ts us : List Token} {t : Token} (ht : ¬ t.IsNumber) (hts : Apart ts)
    (hus : Apart us) : Apart (ts ++ t :: us) := by
  refine List.isChain_append.2 ⟨hts, apart_cons ht hus, fun u _ v hv h => ht ?_⟩
  obtain rfl : v = t := by simpa using hv.symm
  exact h.2

theorem apart_enclosed {ts : List Token} {t u : Token} (ht : ¬ t.IsNumber) (hu : ¬ u.IsNumber)
    (hts : Apart ts) : Apart (t :: ts ++ [u]) :=
  apart_append_cons hu (apart_cons ht hts) .nil

mutual

/-- In a document no two numbers stand next to each other. -/
theorem apart_tokens : ∀ d : Doc, Apart d.tokens
  | .null | .flag _ | .number _ | .string _ | .broken _ => .singleton _
  | .list items _ => apart_enclosed id id (apart_items items)
  | .object members _ => apart_enclosed id id (apart_members members)

theorem apart_items : ∀ items : List Doc, Apart (joined (Doc.itemTokens items))
  | [] => .nil
  | [d] => apart_tokens d
  | d :: d' :: ds => apart_append_cons (t := .comma) id (apart_tokens d) (apart_items (d' :: ds))

theorem apart_members : ∀ members : List (Option String × Doc), Apart (joined (Doc.memberTokens members))
  | [] => .nil
  | [(_, d)] => apart_cons id (apart_cons id (apart_tokens d))
  | (_, d) :: p :: ms =>
    apart_append_cons (t := .comma) id (apart_cons id (apart_cons id (apart_tokens d)))
      (apart_members (p :: ms))

end

theorem Doc.IsText.isWhole {d : Doc} {bs : Bytes} (h : d.IsText bs) : d.IsWhole := by
  obtain ⟨hwhole, -, -⟩ := h
  exact hwhole

/-- **Every text of a document is read as this document.** -/
theorem Doc.IsText.read {d : Doc} {bs : Bytes} (h : d.IsText bs) : Json.read bs = ⟨d, false⟩ := by
  obtain ⟨hwhole, hspells, hspace⟩ := h
  have hend : Json.tokens [] = [] := by rw [Json.tokens]
  have hblank := tokens_blank hspace []
  have hts := hspells.tokens (apart_tokens d) (List.append_nil _ ▸ hspace.loose loose_nil)
  rw [List.append_nil, hend] at hblank
  rw [hblank, List.append_nil] at hts
  rw [Json.read, hts, Assembly.foldl_tokens d hwhole]
  rfl

end LogRelay.Json
