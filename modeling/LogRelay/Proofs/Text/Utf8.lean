import LogRelay.Text.Utf8

/-!
# Reading what was written in UTF-8

The octets of a character are read as this one character, whatever follows them.

* `front_encodeChar`, `pieces_encodeChar`: one character;
* `decode?_encode`: **a text is read back**;
* `eq_or_le_of_mem_encodeChar`: the octets of an ASCII character are the character itself, and those of
  any other have their highest bit set;
* `decodeLossy_append`: **octets that are not UTF-8 are read alone, up to the next ASCII octet**;
* `mem_of_mem_decodeLossy`: an ASCII character is read from its own octet only.
-/

namespace LogRelay.Utf8

/-- The bound as the numeral that arithmetic goes by. -/
theorem toNat_octet {n : Nat} (h : n < 256) : (UInt8.ofNat n).toNat = n := UInt8.toNat_ofNat_of_lt' h

theorem isContinuation_ofNat (n : Nat) : isContinuation (UInt8.ofNat (0x80 + n % 64)) = true := by
  have hb : (UInt8.ofNat (0x80 + n % 64)).toNat = 0x80 + n % 64 := toNat_octet (by omega)
  simp only [isContinuation, UInt8.le_iff_toNat_le, hb]
  simp
  omega

theorem low6_ofNat (n : Nat) : low6 (UInt8.ofNat (0x80 + n % 64)) = n % 64 := by
  rw [low6, toNat_octet (by omega)]
  omega

/-! ### One character -/

section

variable {n : Nat}

theorem front_one (h : n < 0x80) (rest : Bytes) :
    front (UInt8.ofNat n) rest = (.char (Char.ofNat n), 0) := by
  have hb : (UInt8.ofNat n).toNat = n := toNat_octet (by omega)
  have h₁ : UInt8.ofNat n < 0x80 := by
    rw [UInt8.lt_iff_toNat_lt, hb]
    exact h
  simp only [front, if_pos h₁, hb]

theorem front_two (h : 0x80 ≤ n) (h' : n < 0x800) (rest : Bytes) :
    front (UInt8.ofNat (0xC0 + n / 64)) (UInt8.ofNat (0x80 + n % 64) :: rest) =
      (.char (Char.ofNat n), 1) := by
  have hb : (UInt8.ofNat (0xC0 + n / 64)).toNat = 0xC0 + n / 64 := toNat_octet (by omega)
  generalize UInt8.ofNat (0xC0 + n / 64) = b at hb ⊢
  have h₁ : ¬ b < 0x80 := by
    simp [UInt8.lt_iff_toNat_lt, hb]
    omega
  have h₂ : (0xC2 ≤ b && b ≤ 0xDF) = true := by
    simp [UInt8.le_iff_toNat_le, hb]
    omega
  have hn : b.toNat % 32 * 64 + n % 64 = n := by omega
  simp only [front, if_neg h₁, if_pos h₂, isContinuation_ofNat, if_true, low6_ofNat, hn]

theorem front_three (h : 0x800 ≤ n) (h' : n < 0x10000) (hs : n < 0xD800 ∨ 0xDFFF < n) (rest : Bytes) :
    front (UInt8.ofNat (0xE0 + n / 4096))
        (UInt8.ofNat (0x80 + n / 64 % 64) :: UInt8.ofNat (0x80 + n % 64) :: rest) =
      (.char (Char.ofNat n), 2) := by
  have hb : (UInt8.ofNat (0xE0 + n / 4096)).toNat = 0xE0 + n / 4096 := toNat_octet (by omega)
  have hb₁ : (UInt8.ofNat (0x80 + n / 64 % 64)).toNat = 0x80 + n / 64 % 64 :=
    toNat_octet (by omega)
  have hc := isContinuation_ofNat (n / 64)
  have hl := low6_ofNat (n / 64)
  generalize UInt8.ofNat (0xE0 + n / 4096) = b at hb ⊢
  generalize UInt8.ofNat (0x80 + n / 64 % 64) = b₁ at hb₁ hc hl ⊢
  have h₁ : ¬ b < 0x80 := by
    simp [UInt8.lt_iff_toNat_lt, hb]
    omega
  have h₂ : ¬ (0xC2 ≤ b && b ≤ 0xDF) = true := by
    simp [UInt8.le_iff_toNat_le, hb]
    omega
  have h₃ : (0xE0 ≤ b && b ≤ 0xEF) = true := by
    simp [UInt8.le_iff_toNat_le, hb]
    omega
  -- the second octet is bounded where the character would have a shorter form or be a surrogate
  have h₄ : secondOfThree b b₁ = true := by
    unfold secondOfThree
    split
    next he =>
      have hv : b.toNat = 0xE0 := by rw [he]; rfl
      simp [UInt8.le_iff_toNat_le, hb₁]
      omega
    next =>
      split
      next he =>
        have hv : b.toNat = 0xED := by rw [he]; rfl
        simp [UInt8.le_iff_toNat_le, hb₁]
        omega
      next => exact hc
  have hn : (b.toNat % 16 * 64 + n / 64 % 64) * 64 + n % 64 = n := by omega
  simp only [front, if_neg h₁, if_neg h₂, if_pos h₃, h₄, if_true, isContinuation_ofNat, hl, low6_ofNat, hn]

theorem front_four (h : 0x10000 ≤ n) (h' : n < 0x110000) (rest : Bytes) :
    front (UInt8.ofNat (0xF0 + n / 262144))
        (UInt8.ofNat (0x80 + n / 4096 % 64) :: UInt8.ofNat (0x80 + n / 64 % 64) ::
          UInt8.ofNat (0x80 + n % 64) :: rest) =
      (.char (Char.ofNat n), 3) := by
  have hb : (UInt8.ofNat (0xF0 + n / 262144)).toNat = 0xF0 + n / 262144 := toNat_octet (by omega)
  have hb₁ : (UInt8.ofNat (0x80 + n / 4096 % 64)).toNat = 0x80 + n / 4096 % 64 :=
    toNat_octet (by omega)
  have hc := isContinuation_ofNat (n / 4096)
  have hl := low6_ofNat (n / 4096)
  generalize UInt8.ofNat (0xF0 + n / 262144) = b at hb ⊢
  generalize UInt8.ofNat (0x80 + n / 4096 % 64) = b₁ at hb₁ hc hl ⊢
  have h₁ : ¬ b < 0x80 := by
    simp [UInt8.lt_iff_toNat_lt, hb]
    omega
  have h₂ : ¬ (0xC2 ≤ b && b ≤ 0xDF) = true := by
    simp [UInt8.le_iff_toNat_le, hb]
    omega
  have h₃ : ¬ (0xE0 ≤ b && b ≤ 0xEF) = true := by
    simp [UInt8.le_iff_toNat_le, hb]
    omega
  have h₄ : (0xF0 ≤ b && b ≤ 0xF4) = true := by
    simp [UInt8.le_iff_toNat_le, hb]
    omega
  have h₅ : secondOfFour b b₁ = true := by
    unfold secondOfFour
    split
    next he =>
      have hv : b.toNat = 0xF0 := by rw [he]; rfl
      simp [UInt8.le_iff_toNat_le, hb₁]
      omega
    next =>
      split
      next he =>
        have hv : b.toNat = 0xF4 := by rw [he]; rfl
        simp [UInt8.le_iff_toNat_le, hb₁]
        omega
      next => exact hc
  have hn : ((b.toNat % 8 * 64 + n / 4096 % 64) * 64 + n / 64 % 64) * 64 + n % 64 = n := by omega
  simp only [front, if_neg h₁, if_neg h₂, if_neg h₃, if_pos h₄, h₅, if_true, isContinuation_ofNat, hl,
    low6_ofNat, hn]

end

/-- The octets of a character are read as this character. -/
theorem pieces_encodeChar (c : Char) (rest : Bytes) :
    pieces (encodeChar c ++ rest) = .char c :: pieces rest := by
  have hs : c.toNat < 0xD800 ∨ 0xDFFF < c.toNat ∧ c.toNat < 0x110000 := c.valid
  have hc : Char.ofNat c.toNat = c := Char.ofNat_toNat c
  simp only [encodeChar]
  split
  next h₁ => rw [List.singleton_append, pieces, front_one h₁, hc, List.drop_zero]
  next h₁ =>
    split
    next h₂ =>
      rw [List.cons_append, List.singleton_append, pieces, front_two (by omega) h₂, hc]
      rfl
    next h₂ =>
      split
      next h₃ =>
        simp only [List.cons_append, List.nil_append]
        rw [pieces, front_three (by omega) h₃ (by omega), hc]
        rfl
      next h₃ =>
        simp only [List.cons_append, List.nil_append]
        rw [pieces, front_four (by omega) (by omega), hc]
        rfl

/-! ### Texts -/

theorem pieces_encode (cs : List Char) (rest : Bytes) :
    pieces (encode cs ++ rest) = cs.map .char ++ pieces rest := by
  induction cs with
  | nil => rfl
  | cons c cs ih =>
    rw [encode, List.flatMap_cons, List.append_assoc, pieces_encodeChar]
    exact congrArg _ ih

theorem mapM_char? (cs : List Char) : (cs.map Piece.char).mapM Piece.char? = some cs := by
  induction cs with
  | nil => rfl
  | cons c cs ih => rw [List.map_cons, List.mapM_cons, ih]; rfl

/-- **A text is read back.** -/
theorem decode?_encode (cs : List Char) : decode? (encode cs) = some cs := by
  have h := pieces_encode cs []
  rw [List.append_nil, pieces, List.append_nil] at h
  rw [decode?, h, mapM_char?]

theorem eq_or_le_of_mem_encodeChar {c : Char} {b : UInt8} (h : b ∈ encodeChar c) :
    c.toNat < 0x80 ∧ b.toNat = c.toNat ∨ 0x80 ≤ c.toNat ∧ 0x80 ≤ b.toNat := by
  have hv : c.toNat < 0xD800 ∨ 0xDFFF < c.toNat ∧ c.toNat < 0x110000 := c.valid
  have octet : ∀ {n : Nat}, 0x80 ≤ n → n < 256 → b = UInt8.ofNat n → 0x80 ≤ b.toNat := by
    rintro n hn hn' rfl
    rwa [toNat_octet hn']
  simp only [encodeChar] at h
  split at h
  next h₁ =>
    rw [List.mem_singleton] at h
    exact .inl ⟨h₁, by rw [h, toNat_octet (by omega)]⟩
  next h₁ =>
    refine .inr ⟨by omega, ?_⟩
    split at h
    next h₂ =>
      simp only [List.mem_cons, List.not_mem_nil, or_false] at h
      rcases h with h | h <;> exact octet (by omega) (by omega) h
    next h₂ =>
      split at h
      next h₃ =>
        simp only [List.mem_cons, List.not_mem_nil, or_false] at h
        rcases h with h | h | h <;> exact octet (by omega) (by omega) h
      next h₃ =>
        simp only [List.mem_cons, List.not_mem_nil, or_false] at h
        rcases h with h | h | h | h <;> exact octet (by omega) (by omega) h

/-! ### Across an ASCII octet -/

section

variable {a : UInt8} (ha : a < 0x80)
include ha

theorem not_le_ascii {c : UInt8} (hc : 0x80 ≤ c) : ¬ c ≤ a := fun h =>
  UInt8.lt_irrefl a (UInt8.lt_of_lt_of_le ha (UInt8.le_trans hc h))

theorem isContinuation_ascii : isContinuation a = false := by
  simp [isContinuation, not_le_ascii ha]

theorem secondOfThree_ascii (b : UInt8) : secondOfThree b a = false := by
  simp [secondOfThree, isContinuation_ascii ha, not_le_ascii ha]

theorem secondOfFour_ascii (b : UInt8) : secondOfFour b a = false := by
  simp [secondOfFour, isContinuation_ascii ha, not_le_ascii ha]

/-- What stands before an ASCII octet is read as if nothing followed. -/
theorem front_append (b : UInt8) (xs ys : Bytes) : front b (xs ++ a :: ys) = front b xs := by
  have hc := isContinuation_ascii ha
  match xs with
  | [] => simp [front, hc, secondOfThree_ascii ha, secondOfFour_ascii ha]
  | [x] => simp [front, hc]
  | [x, y] => simp [front, hc]
  | x :: y :: z :: xs => rfl

theorem front_ascii (rest : Bytes) : front a rest = (.char (Char.ofNat a.toNat), 0) := by
  simp only [front, if_pos ha]

end

theorem snd_front_le (b : UInt8) (rest : Bytes) : (front b rest).2 ≤ rest.length := by
  rcases rest with _ | ⟨x, _ | ⟨y, _ | ⟨z, zs⟩⟩⟩
  all_goals
    simp only [front]
    repeat' split
    all_goals simp

/-- **The pieces before an ASCII octet do not depend on what follows it, nor those behind it on what was before
it.** -/
theorem pieces_append {a : UInt8} (ha : a < 0x80) (xs ys : Bytes) :
    pieces (xs ++ a :: ys) = pieces xs ++ .char (Char.ofNat a.toNat) :: pieces ys := by
  induction xs using pieces.induct with
  | case1 => rw [List.nil_append, pieces.eq_2, front_ascii ha, List.drop_zero, pieces.eq_1, List.nil_append]
  | case2 b rest ih =>
    rw [List.cons_append, pieces, front_append ha, List.drop_append_of_le_length (snd_front_le b rest), ih,
      pieces, List.cons_append]

theorem toNat_ofNat_or (n : Nat) : (Char.ofNat n).toNat = n ∨ (Char.ofNat n).toNat = 0 := by
  by_cases h : n.isValidChar
  · left
    rw [Char.ofNat, dif_pos h]
    rfl
  · right
    rw [Char.ofNat, dif_neg h]
    rfl

section

variable {b b₁ b₂ b₃ : UInt8}

theorem le_two (hb : (0xC2 ≤ b && b ≤ 0xDF) = true) : 0x80 ≤ b.toNat % 32 * 64 + low6 b₁ := by
  simp [UInt8.le_iff_toNat_le] at hb
  omega

theorem le_three (hb : (0xE0 ≤ b && b ≤ 0xEF) = true) (h : secondOfThree b b₁ = true) :
    0x80 ≤ (b.toNat % 16 * 64 + low6 b₁) * 64 + low6 b₂ := by
  simp [UInt8.le_iff_toNat_le] at hb
  rw [secondOfThree] at h
  split at h
  next he =>
    simp [UInt8.le_iff_toNat_le] at h
    rw [low6]
    omega
  next he =>
    have hne : b.toNat ≠ 0xE0 := fun heq => he (UInt8.toNat_inj.1 heq)
    omega

theorem le_four (hb : (0xF0 ≤ b && b ≤ 0xF4) = true) (h : secondOfFour b b₁ = true) :
    0x80 ≤ ((b.toNat % 8 * 64 + low6 b₁) * 64 + low6 b₂) * 64 + low6 b₃ := by
  simp [UInt8.le_iff_toNat_le] at hb
  rw [secondOfFour] at h
  split at h
  next he =>
    simp [UInt8.le_iff_toNat_le] at h
    rw [low6]
    omega
  next he =>
    have hne : b.toNat ≠ 0xF0 := fun heq => he (UInt8.toNat_inj.1 heq)
    omega

end

/-- The octets of a longer character stand for no ASCII character. -/
theorem eq_of_front {b : UInt8} {rest : Bytes} {c : Char} (h : (front b rest).1 = .char c)
    (hpos : 0 < c.toNat) (hc : c.toNat < 0x80) : b.toNat = c.toNat := by
  have high {n : Nat} (hn : 0x80 ≤ n) : Piece.char (Char.ofNat n) ≠ .char c := by
    intro heq
    rw [← Piece.char.inj heq] at hpos hc
    rcases toNat_ofNat_or n with h | h <;> omega
  simp only [front] at h
  split at h
  next =>
    have hb := toNat_ofNat_or b.toNat
    rw [Piece.char.inj h] at hb
    omega
  next =>
    exfalso
    repeat' split at h
    -- a character of two, of three or of four octets; all else is ill
    all_goals first | refine absurd h (high ?_) | simp at h
    · exact le_two ‹_›
    · exact le_three ‹_› ‹_›
    · exact le_four ‹_› ‹_›

/-- An ASCII character among the pieces is one of the octets. -/
theorem mem_of_mem_pieces {xs : Bytes} {c : Char} (h : .char c ∈ pieces xs) (hpos : 0 < c.toNat)
    (hc : c.toNat < 0x80) : UInt8.ofNat c.toNat ∈ xs := by
  induction xs using pieces.induct with
  | case1 => exact absurd h (by simp [pieces])
  | case2 b rest ih =>
    rw [pieces] at h
    rcases List.mem_cons.1 h with h | h
    · have hb : UInt8.ofNat c.toNat = b := by rw [← eq_of_front h.symm hpos hc, UInt8.ofNat_toNat]
      exact hb ▸ List.mem_cons_self
    · exact List.mem_cons_of_mem b (List.mem_of_mem_drop (ih h))

/-- **Whatever stands before and behind an ASCII octet, ill or not, is read as it would be alone.** -/
theorem decodeLossy_append {a : UInt8} (ha : a < 0x80) (xs ys : Bytes) :
    decodeLossy (xs ++ a :: ys) = decodeLossy xs ++ Char.ofNat a.toNat :: decodeLossy ys := by
  rw [decodeLossy, pieces_append ha, List.map_append, List.map_cons]
  rfl

theorem mem_of_mem_decodeLossy {xs : Bytes} {c : Char} (h : c ∈ decodeLossy xs) (hpos : 0 < c.toNat)
    (hc : c.toNat < 0x80) : UInt8.ofNat c.toNat ∈ xs := by
  obtain ⟨piece, hmem, hpiece⟩ := List.mem_map.1 h
  cases piece with
  | char c' =>
    obtain rfl : c' = c := hpiece
    exact mem_of_mem_pieces hmem hpos hc
  | ill =>
    -- the replacement character is no ASCII character
    obtain rfl : replacement = c := hpiece
    exact absurd hc (by decide)

theorem decodeLossy_eq_nil_iff {bs : Bytes} : decodeLossy bs = [] ↔ bs = [] := by
  cases bs with
  | nil => simp [decodeLossy, pieces]
  | cons b rest => simp [decodeLossy, pieces]

end LogRelay.Utf8
