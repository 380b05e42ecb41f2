import LogRelay.Json.Token
import LogRelay.Proofs.Text.Utf8

/-!
# Reading what was written as a JSON string

A text is written character by character, as it is or escaped, and either way it is scanned into pieces
that stand for the octets of the character.  A string may also hold what stands for no character; then it
is still a string, but one without a text.

* `Row`: a row of things, each of them written in some way;
* `Denotes bs out`: `bs` is scanned into pieces that stand for `out`, whatever comes before and behind;
* `CharForm`, `CharForm.denotes`: the ways to write a character, and that each denotes its octets;
* `PieceForm`, `scan_row`: the ways to write the parts of any string;
* `lexString_chars`, `lexString_pieces`: **a string is read as its text, or as having none**.
-/

namespace LogRelay.Json

/-- A row of things in writing, each of them in one of the ways that `form` has for it. -/
inductive Row {α : Type} (form : α → Bytes → Prop) : List α → Bytes → Prop where
  | nil : Row form [] []
  | cons {a : α} {as : List α} {bs rest : Bytes} (h : form a bs) (hrest : Row form as rest) :
      Row form (a :: as) (bs ++ rest)

namespace Quoted

/-- Inside a string `bs` is scanned into pieces that stand for `out`. -/
def Denotes (bs out : Bytes) : Prop :=
  ∃ ps : List Piece, (∀ rest, scan (bs ++ rest) = ⟨ps ++ (scan rest).pieces, (scan rest).rest⟩) ∧
    ∀ f qs, octets f (ps ++ qs) = (octets f qs).map (out ++ ·)

theorem Denotes.nil : Denotes [] [] :=
  ⟨[], fun _ => rfl, fun f qs => by cases h : octets f qs <;> simp [h, Except.map]⟩

theorem Denotes.append {bs bs' out out' : Bytes} (h : Denotes bs out) (h' : Denotes bs' out') :
    Denotes (bs ++ bs') (out ++ out') := by
  obtain ⟨ps, hs, ho⟩ := h
  obtain ⟨ps', hs', ho'⟩ := h'
  refine ⟨ps ++ ps', fun rest => ?_, fun f qs => ?_⟩
  · rw [List.append_assoc, hs, hs', List.append_assoc]
  · rw [List.append_assoc, ho, ho']
    cases octets f qs <;> simp [Except.map]

/-! ### Pieces -/

theorem scan_octet {b : UInt8} (hq : b ≠ quote) (hb : b ≠ backslash) (hc : ¬ b < 32) (rest : Bytes) :
    scan ([b] ++ rest) = (scan rest).cons (.octet b) := by
  rw [List.singleton_append, scan.eq_def]
  simp only [if_neg hq, if_neg hb, if_neg hc]

theorem scan_short {e b : UInt8} (he : short? e = some b) (rest : Bytes) :
    scan ([backslash, e] ++ rest) = (scan rest).cons (.short b) := by
  have hu : e ≠ 117 := by
    rintro rfl
    cases he
  have hq : backslash ≠ quote := by decide
  rw [List.cons_append, List.singleton_append, scan.eq_def]
  simp only [if_neg hq, if_true, if_neg hu, he]

theorem scan_hex {h₁ h₂ h₃ h₄ : UInt8} {n : Nat} (h : hexUnit? h₁ h₂ h₃ h₄ = some n) (rest : Bytes) :
    scan ([backslash, 117, h₁, h₂, h₃, h₄] ++ rest) = (scan rest).cons (.hex n) := by
  have hq : backslash ≠ quote := by decide
  simp only [List.cons_append, List.nil_append]
  rw [scan.eq_def]
  simp only [if_neg hq, if_true, h]

theorem denotes_octet {b : UInt8} (hq : b ≠ quote) (hb : b ≠ backslash) (hc : ¬ b < 32) :
    Denotes [b] [b] :=
  ⟨[.octet b], scan_octet hq hb hc, fun f qs => by simp [octets]⟩

theorem denotes_short {e b : UInt8} (he : short? e = some b) : Denotes [backslash, e] [b] :=
  ⟨[.short b], scan_short he, fun f qs => by simp [octets]⟩

theorem denotes_hex {h₁ h₂ h₃ h₄ : UInt8} {n : Nat} (h : hexUnit? h₁ h₂ h₃ h₄ = some n)
    (hl : isLow n = false) (hh : isHigh n = false) :
    Denotes [backslash, 117, h₁, h₂, h₃, h₄] (Utf8.encodeChar (Char.ofNat n)) := by
  refine ⟨[.hex n], fun rest => scan_hex h rest, fun f qs => ?_⟩
  rw [List.singleton_append, octets.eq_def]
  simp [hl, hh]

theorem denotes_pair {h₁ h₂ h₃ h₄ l₁ l₂ l₃ l₄ : UInt8} {n m : Nat}
    (hn : hexUnit? h₁ h₂ h₃ h₄ = some n) (hm : hexUnit? l₁ l₂ l₃ l₄ = some m) (hl : isLow n = false)
    (hh : isHigh n = true) (hm' : isLow m = true) :
    Denotes ([backslash, 117, h₁, h₂, h₃, h₄] ++ [backslash, 117, l₁, l₂, l₃, l₄])
      (Utf8.encodeChar (paired n m)) := by
  refine ⟨[.hex n, .hex m], fun rest => ?_, fun f qs => ?_⟩
  · rw [List.append_assoc, scan_hex hn, scan_hex hm]
    rfl
  · show octets f (.hex n :: .hex m :: qs) = _
    rw [octets.eq_def]
    simp [hl, hh, hm']

theorem denotes_octets {bs : Bytes} (h : ∀ b ∈ bs, b ≠ quote ∧ b ≠ backslash ∧ ¬ b < 32) :
    Denotes bs bs := by
  induction bs with
  | nil => exact Denotes.nil
  | cons b bs ih =>
    obtain ⟨hq, hb, hc⟩ := h b List.mem_cons_self
    exact (denotes_octet hq hb hc).append (ih fun b' hb' => h b' (List.mem_cons_of_mem _ hb'))

/-! ### Characters -/

/-- The ways to write a character in a string: as it is, by a letter after a backslash, or by one or two
hexadecimal units. -/
inductive CharForm : Char → Bytes → Prop where
  | plain {c : Char} (hc : 32 ≤ c.toNat) (hq : c ≠ '"') (hb : c ≠ '\\') : CharForm c (Utf8.encodeChar c)
  | short {e b : UInt8} (h : short? e = some b) : CharForm (Char.ofNat b.toNat) [backslash, e]
  | hex {c : Char} {h₁ h₂ h₃ h₄ : UInt8} (h : hexUnit? h₁ h₂ h₃ h₄ = some c.toNat) :
      CharForm c [backslash, 117, h₁, h₂, h₃, h₄]
  | pair {c : Char} {h₁ h₂ h₃ h₄ l₁ l₂ l₃ l₄ : UInt8} (hc : 0x10000 ≤ c.toNat)
      (hhigh : hexUnit? h₁ h₂ h₃ h₄ = some (0xD800 + (c.toNat - 0x10000) / 0x400))
      (hlow : hexUnit? l₁ l₂ l₃ l₄ = some (0xDC00 + (c.toNat - 0x10000) % 0x400)) :
      CharForm c ([backslash, 117, h₁, h₂, h₃, h₄] ++ [backslash, 117, l₁, l₂, l₃, l₄])

theorem denotes_plain {c : Char} (h : 32 ≤ c.toNat) (hq : c ≠ '"') (hb : c ≠ '\\') :
    Denotes (Utf8.encodeChar c) (Utf8.encodeChar c) := by
  have hq : c.toNat ≠ 34 := fun he => hq (Char.toNat_inj.1 he)
  have hb : c.toNat ≠ 92 := fun he => hb (Char.toNat_inj.1 he)
  refine denotes_octets fun b hmem => ?_
  have hv := Utf8.eq_or_le_of_mem_encodeChar hmem
  refine ⟨?_, ?_, ?_⟩
  · rintro rfl
    have : quote.toNat = 34 := rfl
    omega
  · rintro rfl
    have : backslash.toNat = 92 := rfl
    omega
  · rw [UInt8.lt_iff_toNat_lt]
    have : (32 : UInt8).toNat = 32 := rfl
    omega

/-- What a letter after a backslash stands for is an ASCII character. -/
theorem encodeChar_short {e b : UInt8} (h : short? e = some b) :
    Utf8.encodeChar (Char.ofNat b.toNat) = [b] := by
  simp only [short?] at h
  split at h
  next he =>
    obtain rfl := Option.some.inj h
    rcases he with rfl | rfl | rfl <;> rfl
  next =>
    iterate 5
      split at h
      · obtain rfl := Option.some.inj h
        rfl
    cases h

/-- The two units of a character make it up. -/
theorem paired_eq {c : Char} (hc : 0x10000 ≤ c.toNat) :
    paired (0xD800 + (c.toNat - 0x10000) / 0x400) (0xDC00 + (c.toNat - 0x10000) % 0x400) = c := by
  have hsum : (0xD800 + (c.toNat - 0x10000) / 0x400 - 0xD800) * 0x400
      + (0xDC00 + (c.toNat - 0x10000) % 0x400 - 0xDC00) + 0x10000 = c.toNat := by omega
  rw [paired, hsum, Char.ofNat_toNat]

/-- A character denotes its octets, however it is written. -/
theorem CharForm.denotes {c : Char} {bs : Bytes} (h : CharForm c bs) : Denotes bs (Utf8.encodeChar c) := by
  cases h with
  | plain hc hq hb => exact denotes_plain hc hq hb
  | short h =>
    rw [encodeChar_short h]
    exact denotes_short h
  | hex h =>
    have hv : c.toNat < 0xD800 ∨ 0xDFFF < c.toNat ∧ c.toNat < 0x110000 := c.valid
    have hl : isLow c.toNat = false := by simp [isLow]; omega
    have hh : isHigh c.toNat = false := by simp [isHigh]; omega
    have hd := denotes_hex h hl hh
    rwa [Char.ofNat_toNat] at hd
  | pair hc hhigh hlow =>
    have hv : c.toNat < 0xD800 ∨ 0xDFFF < c.toNat ∧ c.toNat < 0x110000 := c.valid
    have hd := denotes_pair hhigh hlow (by simp [isLow]; omega) (by simp [isHigh]; omega)
      (by simp [isLow]; omega)
    rwa [paired_eq hc] at hd

theorem hexUnit?_control : ∀ n < 32, hexUnit? 48 48 (hexOctet (n / 16)) (hexOctet (n % 16)) = some n := by
  decide

/-- A character is written in one of the ways to write it. -/
theorem charForm_writeChar (c : Char) : CharForm c (writeChar c) := by
  unfold writeChar
  split
  next h => subst h; exact .short (b := 34) rfl
  next hq =>
  split
  next h => subst h; exact .short (b := 92) rfl
  next hb =>
  split
  next h => subst h; exact .short (b := 8) rfl
  next =>
  split
  next h => subst h; exact .short (b := 9) rfl
  next =>
  split
  next h => subst h; exact .short (b := 10) rfl
  next =>
  split
  next h => subst h; exact .short (b := 12) rfl
  next =>
  split
  next h => subst h; exact .short (b := 13) rfl
  next =>
  split
  next h => exact .hex (hexUnit?_control c.toNat h)
  next h => exact .plain (Nat.le_of_not_lt h) hq hb

theorem row_writeChar (cs : List Char) : Row CharForm cs (cs.flatMap writeChar) := by
  induction cs with
  | nil => exact .nil
  | cons c cs ih => exact .cons (charForm_writeChar c) ih

theorem denotes_row {cs : List Char} {bs : Bytes} (h : Row CharForm cs bs) : Denotes bs (Utf8.encode cs) := by
  induction h with
  | nil => exact Denotes.nil
  | cons h _ ih => exact h.denotes.append ih

/-! ### Strings -/

/-- Behind the closing quote a string is over. -/
theorem scan_quote (rest : Bytes) : scan (quote :: rest) = ⟨[], .ok rest⟩ := by
  rw [scan.eq_def]
  simp only [if_true]

/-- **A string is read as its text**, however its characters are written. -/
theorem lexString_chars {s : String} {bs : Bytes} (h : Row CharForm s.toList bs) (rest : Bytes) :
    lexString (bs ++ quote :: rest) = ⟨.string (some s), rest⟩ := by
  obtain ⟨ps, hs, ho⟩ := denotes_row h
  have hps := ho .malformed []
  rw [List.append_nil] at hps
  have ht : text? ps = some s := by
    simp [text?, hps, octets, Except.map, Utf8.decode?_encode]
  simp only [Json.lexString, hs, scan_quote, List.append_nil, ht]

/-- The ways to write a part of a string, whether it stands for characters or not. -/
inductive PieceForm : Piece → Bytes → Prop where
  | octet {b : UInt8} (hq : b ≠ quote) (hb : b ≠ backslash) (hc : 32 ≤ b) : PieceForm (.octet b) [b]
  | short {e b : UInt8} (h : short? e = some b) : PieceForm (.short b) [backslash, e]
  | hex {h₁ h₂ h₃ h₄ : UInt8} {n : Nat} (h : hexUnit? h₁ h₂ h₃ h₄ = some n) :
      PieceForm (.hex n) [backslash, 117, h₁, h₂, h₃, h₄]

theorem scan_row {ps : List Piece} {bs : Bytes} (h : Row PieceForm ps bs) (rest : Bytes) :
    scan (bs ++ rest) = ⟨ps ++ (scan rest).pieces, (scan rest).rest⟩ := by
  induction h with
  | nil => rfl
  | cons h _ ih =>
    rw [List.append_assoc]
    cases h with
    | octet hq hb hc => rw [scan_octet hq hb (UInt8.not_lt.2 hc), ih]; rfl
    | short h => rw [scan_short h, ih]; rfl
    | hex h => rw [scan_hex h, ih]; rfl

/-- A string is read to its end, whatever its parts stand for. -/
theorem lexString_pieces {ps : List Piece} {bs : Bytes} (h : Row PieceForm ps bs) (rest : Bytes) :
    lexString (bs ++ quote :: rest) = ⟨.string (text? ps), rest⟩ := by
  simp only [Json.lexString, scan_row h, scan_quote, List.append_nil]

end Quoted

end LogRelay.Json
