import LogRelay.Json.Doc
import LogRelay.Proofs.Json.Numeral
import LogRelay.Proofs.Json.Quoted

/-!
# Reading JSON documents

A document without a cut is spelled by a row of tokens, and putting the tokens together gives the document
back, in whatever frames it stands.

* `Doc.IsWhole`, `Doc.tokens`: documents without a cut, and the tokens of a document;
* `Assembly.foldl_tokens`: **the tokens of a document are put together to it**;
* `tokens_cons`, `tokens_numeral`: the token at the front of a byte string.
-/

namespace LogRelay.Json

/-! ### The tokens of a document -/

mutual

/-- Whether reading did not stop inside a document. -/
def Doc.IsWhole : Doc → Prop
  | .null | .flag _ | .number _ | .string _ => True
  | .list items cut => cut = none ∧ Doc.ItemsWhole items
  | .object members cut => cut = none ∧ Doc.MembersWhole members
  | .broken _ => False

/-- Whether all items are whole. -/
def Doc.ItemsWhole : List Doc → Prop
  | [] => True
  | d :: ds => d.IsWhole ∧ Doc.ItemsWhole ds

/-- Whether the values of all members are whole. -/
def Doc.MembersWhole : List (Option String × Doc) → Prop
  | [] => True
  | (_, d) :: ms => d.IsWhole ∧ Doc.MembersWhole ms

end

theorem Doc.itemsWhole_iff {items : List Doc} : Doc.ItemsWhole items ↔ ∀ d ∈ items, d.IsWhole := by
  induction items with
  | nil => simp [Doc.ItemsWhole]
  | cons d ds ih => simp [Doc.ItemsWhole, ih]

theorem Doc.membersWhole_iff {members : List (Option String × Doc)} :
    Doc.MembersWhole members ↔ ∀ p ∈ members, p.2.IsWhole := by
  induction members with
  | nil => simp [Doc.MembersWhole]
  | cons p ms ih => simp [Doc.MembersWhole, ih]

/-- Rows of tokens with commas between them. -/
def joined : List (List Token) → List Token
  | [] => []
  | [ts] => ts
  | ts :: tss => ts ++ .comma :: joined tss

mutual

/-- The tokens that spell a document. -/
def Doc.tokens : Doc → List Token
  | .null => [.null]
  | .flag b => [.flag b]
  | .number v => [.number v]
  | .string s => [.string s]
  | .list items _ => .listOpen :: joined (Doc.itemTokens items) ++ [.listClose]
  | .object members _ => .objectOpen :: joined (Doc.memberTokens members) ++ [.objectClose]
  | .broken c => [.broken c]

def Doc.itemTokens : List Doc → List (List Token)
  | [] => []
  | d :: ds => d.tokens :: Doc.itemTokens ds

def Doc.memberTokens : List (Option String × Doc) → List (List Token)
  | [] => []
  | (key, d) :: ms => (.string key :: .colon :: d.tokens) :: Doc.memberTokens ms

end

theorem Doc.itemTokens_eq (items : List Doc) : Doc.itemTokens items = items.map Doc.tokens := by
  induction items with
  | nil => rfl
  | cons d ds ih => rw [Doc.itemTokens, ih, List.map_cons]

theorem Doc.memberTokens_eq (members : List (Option String × Doc)) :
    Doc.memberTokens members = members.map fun p => .string p.1 :: .colon :: p.2.tokens := by
  induction members with
  | nil => rfl
  | cons p ms ih => rw [Doc.memberTokens, ih, List.map_cons]

/-! ### Putting tokens together -/

namespace Assembly

theorem joined_itemTokens (d d' : Doc) (ds : List Doc) :
    joined (Doc.itemTokens (d :: d' :: ds)) =
      d.tokens ++ .comma :: joined (Doc.itemTokens (d' :: ds)) := rfl

theorem joined_memberTokens (k : Option String) (d : Doc) (p : Option String × Doc)
    (ms : List (Option String × Doc)) :
    joined (Doc.memberTokens ((k, d) :: p :: ms)) =
      .string k :: .colon :: d.tokens ++ .comma :: joined (Doc.memberTokens (p :: ms)) := rfl

/-- The first item of a list stands where the list could also end. -/
theorem foldl_firstItem (d : Doc) (ts : List Token) (frames : List Frame) :
    (d.tokens ++ ts).foldl step (.item frames) =
      (d.tokens ++ ts).foldl step (.value (.list [] :: frames)) := by
  cases d <;> rfl

theorem step_key (first : Bool) (k : Option String) (members : List (Option String × Doc))
    (frames : List Frame) :
    step (step (.key first members frames) (.string k)) .colon = .value (.member members k :: frames) := by
  cases first <;> rfl

mutual

/-- **The tokens of a document are put together to it**, in whatever frames it stands. -/
theorem foldl_tokens : ∀ (d : Doc), d.IsWhole → ∀ frames,
    d.tokens.foldl step (.value frames) = supply d frames
  | .null, _, _ => rfl
  | .flag _, _, _ => rfl
  | .number _, _, _ => rfl
  | .string _, _, _ => rfl
  | .list [] _, h, frames => by
    obtain ⟨rfl, -⟩ := h
    rfl
  | .list (d :: ds) _, h, frames => by
    obtain ⟨rfl, hd, hds⟩ := h
    have hfirst : (joined (Doc.itemTokens (d :: ds))).foldl step (.item frames) =
        (joined (Doc.itemTokens (d :: ds))).foldl step (.value (.list [] :: frames)) := by
      cases ds with
      | nil => simpa [Doc.itemTokens, joined] using foldl_firstItem d [] frames
      | cons d' ds => exact foldl_firstItem d _ frames
    rw [Doc.tokens, List.foldl_append, List.foldl_cons]
    show [Token.listClose].foldl step ((joined (Doc.itemTokens (d :: ds))).foldl step (.item frames)) = _
    rw [hfirst, foldl_items (d :: ds) ⟨hd, hds⟩ (List.cons_ne_nil _ _), List.append_nil]
    show supply (.list (d :: ds).reverse.reverse none) frames = _
    rw [List.reverse_reverse]
  | .object [] _, h, frames => by
    obtain ⟨rfl, -⟩ := h
    rfl
  | .object ((k, d) :: ms) _, h, frames => by
    obtain ⟨rfl, hd, hms⟩ := h
    rw [Doc.tokens, List.foldl_append, List.foldl_cons]
    show [Token.objectClose].foldl step
      ((joined (Doc.memberTokens ((k, d) :: ms))).foldl step (.key true [] frames)) = _
    rw [foldl_members ((k, d) :: ms) ⟨hd, hms⟩ (List.cons_ne_nil _ _), List.append_nil]
    show supply (.object ((k, d) :: ms).reverse.reverse none) frames = _
    rw [List.reverse_reverse]
  | .broken _, h, _ => h.elim

theorem foldl_items : ∀ (items : List Doc), Doc.ItemsWhole items → items ≠ [] → ∀ done frames,
    (joined (Doc.itemTokens items)).foldl step (.value (.list done :: frames)) =
      .afterItem (items.reverse ++ done) frames
  | [], _, hne, _, _ => absurd rfl hne
  | [d], h, _, done, frames => by
    show d.tokens.foldl step _ = _
    rw [foldl_tokens d h.1]
    rfl
  | d :: d' :: ds, h, _, done, frames => by
    rw [joined_itemTokens, List.foldl_append, foldl_tokens d h.1, List.foldl_cons]
    show (joined (Doc.itemTokens (d' :: ds))).foldl step (.value (.list (d :: done) :: frames)) = _
    rw [foldl_items (d' :: ds) h.2 (List.cons_ne_nil _ _), List.reverse_cons (a := d), List.append_assoc,
      List.singleton_append]

theorem foldl_members : ∀ (members : List (Option String × Doc)), Doc.MembersWhole members →
    members ≠ [] → ∀ first done frames,
    (joined (Doc.memberTokens members)).foldl step (.key first done frames) =
      .afterMember (members.reverse ++ done) frames
  | [], _, hne, _, _, _ => absurd rfl hne
  | [(k, d)], h, _, first, done, frames => by
    show d.tokens.foldl step (step (step (.key first done frames) (.string k)) .colon) = _
    rw [step_key, foldl_tokens d h.1]
    rfl
  | (k, d) :: (k', d') :: ms, h, _, first, done, frames => by
    rw [joined_memberTokens, List.foldl_append]
    show (Token.comma :: joined (Doc.memberTokens ((k', d') :: ms))).foldl step
      (d.tokens.foldl step (step (step (.key first done frames) (.string k)) .colon)) = _
    rw [step_key, foldl_tokens d h.1, List.foldl_cons]
    show (joined (Doc.memberTokens ((k', d') :: ms))).foldl step (.key false ((k, d) :: done) frames) = _
    rw [foldl_members ((k', d') :: ms) h.2 (List.cons_ne_nil _ _), List.reverse_cons (a := (k, d)),
      List.append_assoc, List.singleton_append]

end

end Assembly

/-! ### Splitting into tokens -/

theorem tokens_cons {b : UInt8} (h : isSpace b = false) (rest : Bytes) :
    tokens (b :: rest) = (lex b rest).token :: tokens (lex b rest).rest := by
  rw [tokens, if_neg (by simp [h])]

theorem loose_nil : Loose [] := by rintro b ⟨⟩

theorem loose_cons {b : UInt8} (h : digit? b = none ∧ b ≠ 46 ∧ b ≠ 101 ∧ b ≠ 69) (rest : Bytes) :
    Loose (b :: rest) := by
  rintro b ⟨⟩
  exact h

/-- Whatever starts like a numeral is taken for one. -/
theorem tokens_numeral {b : UInt8} (h : b = 45 ∨ (digit? b).isSome = true) (rest : Bytes) :
    tokens (b :: rest) = (lexNumber (b :: rest)).token :: tokens (lexNumber (b :: rest)).rest := by
  have hb : 45 ≤ b.toNat ∧ b.toNat ≤ 57 := by
    rcases h with rfl | h
    · decide
    · simp only [digit?] at h
      split at h
      · omega
      · cases h
  have hne : ∀ c : UInt8, c.toNat < 45 ∨ 57 < c.toNat → b ≠ c := by
    rintro c hc rfl
    omega
  have hspace : isSpace b = false := by
    simp [isSpace, hne 32 (.inl (by decide)), hne 10 (.inl (by decide)), hne 9 (.inl (by decide)),
      hne 13 (.inl (by decide))]
  have hlex : lex b rest = lexNumber (b :: rest) := by
    unfold lex
    rw [if_neg (hne 91 (.inr (by decide))), if_neg (hne 93 (.inr (by decide))),
      if_neg (hne 123 (.inr (by decide))), if_neg (hne 125 (.inr (by decide))),
      if_neg (hne 44 (.inl (by decide))), if_neg (hne 58 (.inr (by decide))),
      if_neg (hne 34 (.inl (by decide))), if_neg (hne 110 (.inr (by decide))),
      if_neg (hne 116 (.inr (by decide))), if_neg (hne 102 (.inr (by decide))), if_pos h]
  rw [tokens_cons hspace, hlex]

/-- A numeral is told from what follows it, however it is written. -/
theorem tokens_form {x : Lexeme} {bs rest : Bytes} (h : x.Form bs) (hrest : Loose rest) :
    tokens (bs ++ rest) = .number x.value? :: tokens rest := by
  have hn := h.lexNumber hrest
  obtain ⟨b, bs, rfl, hb⟩ := h.exists_cons
  rw [List.cons_append] at hn ⊢
  rw [tokens_numeral hb, hn]

end LogRelay.Json
