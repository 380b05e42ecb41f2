import LogRelay.Zlib.Deflate
import Mathlib.Algebra.GroupWithZero.Nat

/-!
# The room in a code

A code of height at most `d` has `room d` free places at depth `d`.  A symbol put at a depth takes one of
them, and with it its share of the places further down; so the shares of all words together decide whether
they have room, and whether any is left over.

* `Code.room`, `Code.share`: free places, and how many of the deepest places a word takes;
* `Code.Placed`, `Code.exists_insert?`: what putting a symbol into a code does;
* `Code.exists_ofLengths?`: **lengths whose shares fill the code up give one with a word for each symbol**;
* `Code.decode_wordTable`: the words of a table are read as their symbols.
-/

namespace LogRelay.Zlib

namespace Bits

theorem count_add (m n : Nat) : count (m + n) = count m * count n := by
  induction m with
  | zero => simp [count]
  | succ m ih => rw [Nat.succ_add, count, count, ih, Nat.mul_assoc]

theorem count_pos (n : Nat) : 0 < count n := by
  induction n with
  | zero => decide
  | succ n ih =>
    unfold count
    omega

end Bits

namespace Code

/-- The number of free places at a depth. -/
def room : (depth : Nat) → Code → Nat
  | depth, vacant => Bits.count depth
  | _, leaf _ => 0
  | 0, node _ _ => 0
  | depth + 1, node zero one => room depth zero + room depth one

/-- The length of the longest path. -/
def height : Code → Nat
  | vacant | leaf _ => 0
  | node zero one => max zero.height one.height + 1

/-- Below the longest path every free place is as good as any other. -/
theorem room_eq_mul {c : Code} {d : Nat} (h : c.height ≤ d) (k : Nat) :
    c.room (d + k) = c.room d * Bits.count k := by
  induction c generalizing d with
  | vacant => simp only [room, Bits.count_add]
  | leaf => simp only [room, Nat.zero_mul]
  | node zero one ihz iho =>
    simp only [height] at h
    obtain ⟨d, rfl⟩ : ∃ d', d = d' + 1 := ⟨d - 1, by omega⟩
    rw [Nat.succ_add, room, room, ihz (by omega), iho (by omega), Nat.add_mul]

theorem isFull_of_room {c : Code} {d : Nat} (h : c.height ≤ d) (hr : c.room d = 0) :
    c.isFull = true := by
  induction c generalizing d with
  | vacant =>
    have := Bits.count_pos d
    simp only [room] at hr
    omega
  | leaf => rfl
  | node zero one ihz iho =>
    simp only [height] at h
    obtain ⟨d, rfl⟩ : ∃ d', d = d' + 1 := ⟨d - 1, by omega⟩
    simp only [room] at hr
    have hz := ihz (d := d) (by omega) (by omega)
    have ho := iho (d := d) (by omega) (by omega)
    simp [isFull, hz, ho]

/-! ### Putting in one symbol -/

/-- What a code is after a symbol was put into it. -/
structure Placed (symbol depth : Nat) (c c' : Code) : Prop where
  word : ∃ w, w.length = depth ∧ (symbol, w) ∈ c'.words
  keeps : ∀ p ∈ c.words, p ∈ c'.words
  /-- The place is taken. -/
  room : ∀ k, c'.room (depth + k) + Bits.count k = c.room (depth + k)
  /-- The longest path is the one to the new symbol or an old one. -/
  height : c'.height ≤ max depth c.height

/-- What is so below a node is so at the node. -/
theorem Placed.below {symbol depth : Nat} {zero zero' one one' : Code}
    (hword : ∃ w, w.length = depth ∧ ((symbol, w) ∈ zero'.words ∨ (symbol, w) ∈ one'.words))
    (hzero : ∀ p ∈ zero.words, p ∈ zero'.words) (hone : ∀ p ∈ one.words, p ∈ one'.words)
    (hroom : ∀ k, zero'.room (depth + k) + one'.room (depth + k) + Bits.count k =
      zero.room (depth + k) + one.room (depth + k))
    (hheight : max zero'.height one'.height ≤ max depth (max zero.height one.height)) :
    Placed symbol (depth + 1) (node zero one) (node zero' one') where
  word := by
    obtain ⟨w, hw, hm⟩ := hword
    rcases hm with hm | hm
    · exact ⟨false :: w, by simp [hw], by simp [words, hm]⟩
    · exact ⟨true :: w, by simp [hw], by simp [words, hm]⟩
  keeps p hp := by
    simp only [words, List.mem_append, List.mem_map] at hp ⊢
    rcases hp with ⟨q, hq, he⟩ | ⟨q, hq, he⟩
    · exact .inl ⟨q, hzero q hq, he⟩
    · exact .inr ⟨q, hone q hq, he⟩
  room k := by
    rw [Nat.succ_add]
    exact hroom k
  height := by
    simp only [Code.height]
    omega

theorem Placed.zero {symbol depth : Nat} {zero zero' : Code} (h : Placed symbol depth zero zero')
    (one : Code) : Placed symbol (depth + 1) (node zero one) (node zero' one) := by
  refine .below (h.word.imp fun _ hw => hw.imp_right .inl) h.keeps (fun _ hp => hp) (fun k => ?_) ?_
  · have := h.room k
    omega
  · have := h.height
    omega

theorem Placed.one {symbol depth : Nat} {one one' : Code} (h : Placed symbol depth one one')
    (zero : Code) : Placed symbol (depth + 1) (node zero one) (node zero one') := by
  refine .below (h.word.imp fun _ hw => hw.imp_right .inr) (fun _ hp => hp) h.keeps (fun k => ?_) ?_
  · have := h.room k
    omega
  · have := h.height
    omega

/-- A free place splits into two. -/
theorem Placed.split {symbol depth : Nat} {zero : Code} (h : Placed symbol depth vacant zero) :
    Placed symbol (depth + 1) vacant (node zero vacant) := by
  have hz := h.zero vacant
  refine ⟨hz.word, fun p hp => by simp [words] at hp, fun k => ?_, ?_⟩
  · have := hz.room k
    rw [Nat.succ_add] at this ⊢
    simp only [Code.room, Bits.count] at this ⊢
    omega
  · have := h.height
    simp only [Code.height] at this ⊢
    omega

theorem insert?_eq_none {symbol depth : Nat} {c : Code} (h : c.room depth = 0) :
    insert? symbol depth c = none := by
  induction depth generalizing c with
  | zero =>
    cases c with
    | vacant => cases h
    | leaf | node => rfl
  | succ depth ih =>
    cases c with
    | vacant =>
      have := Bits.count_pos (depth + 1)
      simp only [room] at h
      omega
    | leaf => rfl
    | node zero one =>
      simp only [room] at h
      rw [insert?, ih (by omega), ih (by omega)]
      rfl

/-- Where there is room for a symbol, it is put there. -/
theorem exists_insert? (symbol : Nat) {depth : Nat} {c : Code} (h : 0 < c.room depth) :
    ∃ c', insert? symbol depth c = some c' ∧ Placed symbol depth c c' := by
  induction depth generalizing c with
  | zero =>
    cases c with
    | leaf | node => cases h
    | vacant =>
      refine ⟨leaf symbol, rfl, ⟨⟨[], rfl, by simp [words]⟩, fun p hp => by simp [words] at hp, ?_, by
        simp [Code.height]⟩⟩
      intro k
      simp [room]
  | succ depth ih =>
    cases c with
    | leaf => cases h
    | vacant =>
      obtain ⟨zero, hz, hp⟩ := ih (c := vacant) (by simpa only [room] using Bits.count_pos depth)
      exact ⟨node zero vacant, by rw [insert?, hz]; rfl, hp.split⟩
    | node zero one =>
      by_cases hr : zero.room depth = 0
      · obtain ⟨one', ho, hp⟩ := ih (c := one) (by simp only [room] at h; omega)
        refine ⟨node zero one', ?_, hp.one zero⟩
        rw [insert?, insert?_eq_none hr, ho]
        rfl
      · obtain ⟨zero', hz, hp⟩ := ih (c := zero) (by omega)
        refine ⟨node zero' one, ?_, hp.zero one⟩
        rw [insert?, hz]

/-! ### Putting in all symbols -/

/-- How many of the deepest places a word of a length takes. -/
def share (length : Nat) : Nat := Bits.count (maxLength - length)

/-- Symbols in the order of their depths have room if their shares have; what is left is what they do not
take. -/
theorem exists_place? {ps : List (Nat × Nat)} {c : Code} (hasc : ps.Pairwise fun p q => p.2 ≤ q.2)
    (hc : ∀ p ∈ ps, c.height ≤ p.2) (hmax : ∀ p ∈ ps, p.2 ≤ maxLength) (hh : c.height ≤ maxLength)
    (hroom : (ps.map fun p => share p.2).sum ≤ c.room maxLength) :
    ∃ c', place? c ps = some c' ∧ c'.height ≤ maxLength ∧
      c'.room maxLength + (ps.map fun p => share p.2).sum = c.room maxLength ∧
      (∀ p ∈ c.words, p ∈ c'.words) ∧ ∀ p ∈ ps, ∃ w, w.length = p.2 ∧ (p.1, w) ∈ c'.words := by
  induction ps generalizing c with
  | nil => exact ⟨c, rfl, hh, by simp, fun _ hp => hp, by simp⟩
  | cons p ps ih =>
    obtain ⟨symbol, depth⟩ := p
    obtain ⟨hle, hasc⟩ := List.pairwise_cons.1 hasc
    have hdm : depth ≤ maxLength := hmax _ List.mem_cons_self
    have hcd : c.height ≤ depth := hc _ List.mem_cons_self
    obtain ⟨k, hk⟩ : ∃ k, maxLength = depth + k := ⟨maxLength - depth, by omega⟩
    have hs : share depth = Bits.count k := by rw [share, hk, Nat.add_sub_cancel_left]
    simp only [List.map_cons, List.sum_cons, hs] at hroom ⊢
    have hpos : 0 < c.room depth := by
      have hcount := Bits.count_pos k
      rw [hk, room_eq_mul hcd] at hroom
      exact Nat.pos_of_mul_pos_right (Nat.lt_of_lt_of_le (Nat.add_pos_left hcount _) hroom)
    obtain ⟨c₁, hins, hplaced⟩ := exists_insert? symbol hpos
    have h₁ : c₁.height ≤ depth := Nat.le_trans hplaced.height (by omega)
    have hr₁ := hplaced.room k
    rw [← hk] at hr₁
    obtain ⟨c', hc', hh', hr', hold, hnew⟩ := ih (c := c₁) hasc
      (fun q hq => Nat.le_trans h₁ (hle q hq)) (fun q hq => hmax q (List.mem_cons_of_mem _ hq))
      (Nat.le_trans h₁ hdm) (by omega)
    refine ⟨c', by rw [place?, hins]; exact hc', hh', by omega,
      fun q hq => hold q (hplaced.keeps q hq), ?_⟩
    rintro q (_ | ⟨_, hq⟩)
    · obtain ⟨w, hw, hm⟩ := hplaced.word
      exact ⟨w, hw, hold _ hm⟩
    · exact hnew q hq

theorem mem_symbolsOfLength {lengths : List Nat} {i l : Nat} (h : lengths[i]? = some l) (first : Nat) :
    first + i ∈ symbolsOfLength l first lengths := by
  induction lengths generalizing i first with
  | nil => simp at h
  | cons l' ls ih =>
    cases i with
    | zero =>
      obtain rfl : l' = l := by simpa using h
      simp [symbolsOfLength]
    | succ i =>
      have hm := ih (i := i) (by simpa using h) (first + 1)
      rw [show first + 1 + i = first + (i + 1) by omega] at hm
      unfold symbolsOfLength
      split
      · exact List.mem_cons_of_mem _ hm
      · exact hm

theorem mem_placements {lengths : List Nat} {i l : Nat} (h : lengths[i]? = some l) (hpos : 0 < l)
    (hmax : l ≤ maxLength) : (i, l) ∈ placements lengths := by
  have hm := mem_symbolsOfLength h 0
  rw [Nat.zero_add] at hm
  simp only [placements, List.mem_flatMap, List.mem_map, List.mem_range]
  exact ⟨l, ⟨l - 1, by omega, by omega⟩, i, hm, rfl⟩

theorem snd_le_of_mem_placements {lengths : List Nat} {p : Nat × Nat} (h : p ∈ placements lengths) :
    p.2 ≤ maxLength := by
  simp only [placements, List.mem_flatMap, List.mem_map, List.mem_range] at h
  obtain ⟨_, ⟨a, ha, rfl⟩, s, -, rfl⟩ := h
  exact ha

theorem placements_ascending (lengths : List Nat) :
    (placements lengths).Pairwise fun p q => p.2 ≤ q.2 := by
  refine List.pairwise_flatMap.2 ⟨fun l _ => ?_, ?_⟩
  · exact List.pairwise_map.2 (List.pairwise_of_forall fun _ _ => Nat.le_refl l)
  · refine List.pairwise_map.2 (List.pairwise_lt_range.imp fun {a b} hab => ?_)
    intro p hp q hq
    obtain ⟨_, -, rfl⟩ := List.mem_map.1 hp
    obtain ⟨_, -, rfl⟩ := List.mem_map.1 hq
    simp only
    omega

/-- **Lengths whose shares fill the code up give one in which each symbol has a word of its length.** -/
theorem exists_ofLengths? (sparse : Bool) {lengths : List Nat}
    (h : ((placements lengths).map fun p => share p.2).sum = Bits.count maxLength) :
    ∃ c, ofLengths? sparse lengths = some c ∧ ∀ i l, lengths[i]? = some l → 0 < l → l ≤ maxLength →
      ∃ w, w.length = l ∧ (i, w) ∈ c.words := by
  obtain ⟨c, hc, hh, hr, -, hw⟩ := exists_place? (c := vacant) (placements_ascending lengths)
    (fun _ _ => Nat.zero_le _) (fun _ => snd_le_of_mem_placements) (Nat.zero_le _) (Nat.le_of_eq h)
  rw [h] at hr
  have hfull : c.isFull = true := isFull_of_room hh (by simp only [room] at hr ⊢; omega)
  exact ⟨c, by simp [ofLengths?, hc, hfull], fun i l hi hpos hmax => hw _ (mem_placements hi hpos hmax)⟩

/-! ### Tables of words -/

/-- If a place of a table had `P` or is filled in, and everything filled in there has `P`, so has the
place in the end. -/
theorem getD_foldl_setIfInBounds {α : Type} {P : α → Prop} {i : Nat} (d : α) {ps : List (Nat × α)}
    {t : Array α} (hi : i < t.size) (h : P (t.getD i d) ∨ ∃ p ∈ ps, p.1 = i)
    (hps : ∀ p ∈ ps, p.1 = i → P p.2) :
    P ((ps.foldl (fun t p => t.setIfInBounds p.1 p.2) t).getD i d) := by
  induction ps generalizing t with
  | nil => exact h.resolve_right (by simp)
  | cons p ps ih =>
    refine ih (by simpa using hi) ?_ fun q hq => hps q (List.mem_cons_of_mem _ hq)
    by_cases hp : p.1 = i
    · have hx := hps p List.mem_cons_self hp
      subst hp
      exact .inl (by simpa [hi] using hx)
    · refine h.imp (fun hx => ?_) fun ⟨q, hq, he⟩ => ?_
      · simpa [Array.getElem?_setIfInBounds_ne hp] using hx
      · rcases List.mem_cons.1 hq with rfl | hq
        · exact absurd he hp
        · exact ⟨q, hq, he⟩

/-- The word that a table has for a symbol is read as this symbol. -/
theorem decode_wordTable {c : Code} {size symbol : Nat} (hs : symbol < size)
    (h : ∃ w, w ≠ [] ∧ (symbol, w) ∈ c.words) (rest : Bits) :
    c.decode ((c.wordTable size).getD symbol [] ++ rest) = .ok (symbol, rest) := by
  obtain ⟨w, hw, hm⟩ := h
  have hall : ∀ p ∈ c.words, p.2 ≠ [] := by
    cases c with
    | vacant => simp [words] at hm
    | leaf =>
      simp only [words, List.mem_singleton, Prod.mk.injEq] at hm
      exact absurd hm.2 hw
    | node zero one =>
      intro p hp
      simp only [words, List.mem_append, List.mem_map] at hp
      rcases hp with ⟨q, -, rfl⟩ | ⟨q, -, rfl⟩ <;> simp
  obtain ⟨ht, hne⟩ : (symbol, (c.wordTable size).getD symbol []) ∈ c.words ∧
      (c.wordTable size).getD symbol [] ≠ [] := by
    refine getD_foldl_setIfInBounds (P := fun w => (symbol, w) ∈ c.words ∧ w ≠ []) []
      (by simpa using hs) (.inr ⟨_, hm, rfl⟩) ?_
    rintro p hp rfl
    exact ⟨hp, hall p hp⟩
  exact decode_word ht hne rest

end Code

/-! ### The fixed codes -/

theorem exists_word {lengths : List Nat} {symbol : Nat}
    (h : ((Code.placements lengths).map fun p => Code.share p.2).sum = Bits.count Code.maxLength)
    (hl : ∀ l ∈ lengths, 0 < l ∧ l ≤ Code.maxLength) (hs : symbol < lengths.length) :
    ∃ w, w ≠ [] ∧ (symbol, w) ∈ ((Code.ofLengths? true lengths).getD .vacant).words := by
  obtain ⟨c, hc, hw⟩ := Code.exists_ofLengths? true h
  obtain ⟨hpos, hmax⟩ := hl lengths[symbol] (List.getElem_mem hs)
  obtain ⟨w, hlen, hm⟩ := hw symbol _ (List.getElem?_eq_getElem hs) hpos hmax
  refine ⟨w, fun he => ?_, by rw [hc]; exact hm⟩
  rw [he, List.length_nil] at hlen
  omega

theorem decode_fixedWords {symbol : Nat} (h : symbol < 288) (rest : Bits) :
    fixedCode.decode (fixedWords.getD symbol [] ++ rest) = .ok (symbol, rest) := by
  have hlen : fixedLengths.length = 288 := by decide +kernel
  have hs : symbol < fixedLengths.length := Nat.lt_of_lt_of_eq h hlen.symm
  have hall : ∀ l ∈ fixedLengths, 0 < l ∧ l ≤ Code.maxLength := by decide +kernel
  exact Code.decode_wordTable h (exists_word (by decide +kernel) hall hs) rest

theorem decode_fixedDistanceWords {symbol : Nat} (h : symbol < 32) (rest : Bits) :
    fixedDistanceCode.decode (fixedDistanceWords.getD symbol [] ++ rest) = .ok (symbol, rest) := by
  have hs : symbol < (List.replicate 32 5).length := by simpa using h
  have hall : ∀ l ∈ List.replicate 32 5, 0 < l ∧ l ≤ Code.maxLength := by decide +kernel
  exact Code.decode_wordTable h (exists_word (by decide +kernel) hall hs) rest

end LogRelay.Zlib
