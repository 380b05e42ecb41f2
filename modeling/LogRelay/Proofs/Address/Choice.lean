import LogRelay.Address.Choice
import Mathlib.SetTheory.Cardinal.Finite

/-!
# Fair choices

A word chooses one of `n` addresses, or it is refused.  The words that choose the same index follow each
other without a gap, and there are as many of them for each index: `n` shifted to the left as far as it goes
in 64 bits is a multiple of `n`, and that is how many values the low half of a product may have.  A choice
draws words until one is not refused, and that word alone decides.

* `share n`: how many words choose each index;
* `pick?_eq_some_iff`: which words these are;
* `card_pick?`: how many they are;
* `AddressSet.Settles`: which of the words to come is the first that is not refused;
* `AddressSet.choose_of_settles`, `exists_settles`: what it decides, and that there is one;
* `AddressSet.chooses_fairly`: **every index is chosen by as many words, and a choice depends on the first word
  that is not refused, and draws no more.**
-/

namespace LogRelay

/-- How many words choose each of `n` indices: two to the power of the zeros before `n` in 64 bits. -/
def share (n : Nat) : Nat := 2 ^ (BitVec.ofNat 64 n).clz.toNat

/-- The first word that chooses an index. -/
def firstWord (n i : Nat) : Nat := (i * 2 ^ 64 + (n - 1)) / n

/-! ### The words that choose an index -/

section

variable {n : Nat} {w : UInt64}

theorem clz_ofNat (hn : 0 < n) (hlt : n < 2 ^ 64) : (BitVec.ofNat 64 n).clz.toNat = 63 - n.log2 := by
  have hnat : (BitVec.ofNat 64 n).toNat = n := by
    rw [BitVec.toNat_ofNat, Nat.mod_eq_of_lt hlt]
  have hne : BitVec.ofNat 64 n ≠ 0#64 := by
    intro hzero
    rw [hzero] at hnat
    exact absurd hnat (by simp; omega)
  have hlow := BitVec.two_pow_sub_clz_le_toNat_of_ne_zero (by omega) hne
  have hhigh := BitVec.toNat_lt_two_pow_sub_clz (x := BitVec.ofNat 64 n)
  have hclz : (BitVec.ofNat 64 n).clz.toNat < 64 := BitVec.lt_def.1 (BitVec.clz_lt_iff_ne_zero.2 hne)
  rw [hnat] at hlow hhigh
  have hlog : n.log2 = 63 - (BitVec.ofNat 64 n).clz.toNat := by
    refine (Nat.log2_eq_iff (by omega)).2 ⟨hlow, ?_⟩
    have hexponent : 63 - (BitVec.ofNat 64 n).clz.toNat + 1 = 64 - (BitVec.ofNat 64 n).clz.toNat := by omega
    rw [hexponent]
    exact hhigh
  omega

theorem share_pos (n : Nat) : 0 < share n := Nat.two_pow_pos _

/-- The greatest low half that is not refused is one less than a multiple of `n`. -/
theorem zone_eq (hn : 0 < n) (hlt : n < 2 ^ 64) : zone n = n * share n - 1 := by
  rw [zone, share, clz_ofNat hn hlt, Nat.shiftLeft_eq]

/-- A number shifted as far as it goes still goes into 64 bits. -/
theorem mul_share_le (hn : 0 < n) (hlt : n < 2 ^ 64) : n * share n ≤ 2 ^ 64 := by
  have hlog : n.log2 < 64 := (Nat.log2_lt (by omega)).2 hlt
  have hpow : 2 ^ (n.log2 + 1) * 2 ^ (63 - n.log2) = 2 ^ 64 := by
    rw [← Nat.pow_add]
    congr 1
    omega
  rw [share, clz_ofNat hn hlt, ← hpow]
  exact Nat.mul_le_mul_right _ (Nat.le_of_lt Nat.lt_log2_self)

theorem firstWord_le_iff (hn : 0 < n) (i k : Nat) : firstWord n i ≤ k ↔ i * 2 ^ 64 ≤ k * n := by
  rw [firstWord, ← Nat.lt_add_one_iff, Nat.div_lt_iff_lt_mul hn, Nat.succ_mul]
  omega

/-- Words that choose the same index are at most `share n` after the first. -/
theorem lt_firstWord_add_iff (hn : 0 < n) (i k : Nat) :
    k < firstWord n i + share n ↔ k * n < i * 2 ^ 64 + n * share n := by
  by_cases hk : k < share n
  · have hless : k * n < n * share n := by
      rw [Nat.mul_comm]
      exact Nat.mul_lt_mul_of_pos_left hk hn
    omega
  · -- beyond the first words of all, the bound moves with the first word of the index
    obtain ⟨d, rfl⟩ : ∃ d, k = share n + d := ⟨k - share n, by omega⟩
    have hfirst := firstWord_le_iff hn i d
    rw [Nat.add_mul, Nat.mul_comm n]
    omega

theorem pick?_eq_some_iff (hn : 0 < n) (hlt : n < 2 ^ 64) (i : Fin n) :
    pick? n hn w = some i ↔ firstWord n i ≤ w.toNat ∧ w.toNat < firstWord n i + share n := by
  have hle := mul_share_le hn hlt
  have hpos : 0 < n * share n := Nat.mul_pos hn (share_pos n)
  have hzone := zone_eq hn hlt
  rw [firstWord_le_iff hn, lt_firstWord_add_iff hn, pick?]
  by_cases hlow : w.toNat * n % 0x10000000000000000 ≤ zone n
  · rw [if_pos hlow, Option.some.injEq, Fin.ext_iff]
    show w.toNat * n / 0x10000000000000000 = i.val ↔ _
    omega
  · rw [if_neg hlow]
    simp only [reduceCtorEq, false_iff]
    omega

/-- The words that choose an index are words. -/
theorem firstWord_add_le (hn : 0 < n) (hlt : n < 2 ^ 64) (i : Fin n) : firstWord n i + share n ≤ 2 ^ 64 := by
  have hle := mul_share_le hn hlt
  have hindex : (i.val + 1) * 2 ^ 64 ≤ n * 2 ^ 64 := Nat.mul_le_mul_right _ i.isLt
  -- otherwise there is one more number among them
  refine Nat.le_of_not_lt fun hmore => ?_
  have hlast := (lt_firstWord_add_iff hn i.val (2 ^ 64)).1 hmore
  rw [Nat.mul_comm] at hlast
  omega

/-- **As many words choose each index.** -/
theorem card_pick? (hn : 0 < n) (hlt : n < 2 ^ 64) (i : Fin n) :
    Nat.card {w : UInt64 // pick? n hn w = some i} = share n := by
  have hle := firstWord_add_le hn hlt i
  have hword (j : Fin (share n)) : (UInt64.ofNat (firstWord n i + j)).toNat = firstWord n i + j :=
    UInt64.toNat_ofNat_of_lt' (by
      have hsize : UInt64.size = 2 ^ 64 := rfl
      omega)
  let nth (j : Fin (share n)) : {w : UInt64 // pick? n hn w = some i} :=
    ⟨UInt64.ofNat (firstWord n i + j), (pick?_eq_some_iff hn hlt i).2 (by
      rw [hword]
      omega)⟩
  have hinjective : Function.Injective nth := by
    intro j j' hsame
    have hnat := congrArg (fun w => w.val.toNat) hsame
    simp only [nth, hword] at hnat
    exact Fin.ext (by omega)
  have hsurjective : Function.Surjective nth := by
    intro ⟨w, hw⟩
    obtain ⟨hfirst, hlast⟩ := (pick?_eq_some_iff hn hlt i).1 hw
    refine ⟨⟨w.toNat - firstWord n i, by omega⟩, Subtype.ext (UInt64.toNat_inj.1 ?_)⟩
    show (UInt64.ofNat (firstWord n i + _)).toNat = w.toNat
    rw [hword]
    show firstWord n i + (w.toNat - firstWord n i) = w.toNat
    omega
  rw [← Nat.card_eq_of_bijective nth ⟨hinjective, hsurjective⟩, Nat.card_fin]

end

/-! ### The words that a choice draws -/

/-- One of the words to come. -/
def Random.nth (r : Random) (k : Nat) : UInt64 := (r.skip (8 * k)).word.1

theorem Random.nth_skip (r : Random) (k : Nat) : (r.skip 8).nth k = r.nth (k + 1) := by
  rw [nth, nth, skip_skip]
  congr 3
  omega

namespace AddressSet

variable {s : AddressSet} {r : Random} {a : Address} {k : Nat}

theorem choose_of_pick?_eq_some (h : s.pick? r.word.1 = some a) : s.choose r = (a, r.skip 8) := by
  rw [choose]
  split
  next a' h' =>
    rw [h] at h'
    rw [Option.some.inj h']
    rfl
  next h' => exact absurd (h.symm.trans h') (by simp)

theorem choose_of_pick?_eq_none (h : s.pick? r.word.1 = none) : s.choose r = s.choose (r.skip 8) := by
  rw [choose]
  split
  next a' h' => exact absurd (h.symm.trans h') (by simp)
  next => rfl

/-- All words before a certain one are refused, and that one is not. -/
structure Settles (s : AddressSet) (r : Random) (k : Nat) : Prop where
  refused : ∀ j < k, s.pick? (r.nth j) = none
  accepted : (s.pick? (r.nth k)).isSome = true

theorem Settles.skip (h : s.Settles r (k + 1)) : s.Settles (r.skip 8) k where
  refused := by
    intro j hj
    rw [Random.nth_skip]
    exact h.refused (j + 1) (by omega)
  accepted := by
    rw [Random.nth_skip]
    exact h.accepted

theorem Settles.of_skip (h : s.Settles (r.skip 8) k) (hr : s.pick? r.word.1 = none) :
    s.Settles r (k + 1) where
  refused := by
    intro j hj
    cases j with
    | zero => exact hr
    | succ j =>
      rw [← Random.nth_skip]
      exact h.refused j (by omega)
  accepted := by
    rw [← Random.nth_skip]
    exact h.accepted

/-- **The first word that is not refused decides**, and no word is drawn after it. -/
theorem choose_of_settles (h : s.Settles r k) :
    s.pick? (r.nth k) = some (s.choose r).1 ∧ (s.choose r).2 = r.skip (8 * (k + 1)) := by
  induction k generalizing r with
  | zero =>
    obtain ⟨a, ha⟩ := Option.isSome_iff_exists.1 h.accepted
    have hchoose : s.choose r = (a, r.skip 8) := choose_of_pick?_eq_some ha
    rw [hchoose]
    exact ⟨ha, rfl⟩
  | succ k ih =>
    have hrefused : s.pick? r.word.1 = none := h.refused 0 (by omega)
    obtain ⟨hpick, hrest⟩ := ih h.skip
    rw [choose_of_pick?_eq_none hrefused]
    refine ⟨?_, ?_⟩
    · rw [← Random.nth_skip]
      exact hpick
    · rw [hrest, Random.skip_skip]
      congr 1
      omega

theorem exists_settles (s : AddressSet) (r : Random) : ∃ k, s.Settles r k := by
  induction r using choose.induct s with
  | case1 r a h => exact ⟨0, by simp, by rw [Random.nth]; simp [Random.skip, h]⟩
  | case2 r h ih =>
    obtain ⟨k, hk⟩ := ih
    exact ⟨k + 1, hk.of_skip h⟩

/-- The last of several choices is made after the others. -/
theorem chooseMany_succ (s : AddressSet) (k : Nat) (r : Random) :
    s.chooseMany (k + 1) r = ((s.chooseMany k r).1 ++ [(s.choose (s.chooseMany k r).2).1],
      (s.choose (s.chooseMany k r).2).2) := by
  induction k generalizing r with
  | zero => rfl
  | succ k ih =>
    have hfirst (j : Nat) : s.chooseMany (j + 1) r
        = ((s.choose r).1 :: (s.chooseMany j (s.choose r).2).1, (s.chooseMany j (s.choose r).2).2) := rfl
    rw [hfirst (k + 1), ih, hfirst k, List.cons_append]

/-- **Fair choices.**  Let there be fewer than 2⁶⁴ addresses.  Each index is chosen by as many of all words, and
there is a number for each address.  A choice draws words as long as they are refused, and one more; the
index that this one chooses is the index of the address. -/
theorem chooses_fairly (s : AddressSet) (hs : s.size < 2 ^ 64) (r : Random) :
    (∀ i : Fin s.size, Nat.card {w : UInt64 // LogRelay.pick? s.size s.nonempty w = some i}
      = 2 ^ (BitVec.ofNat 64 s.size).clz.toNat) ∧
    (∃ k, s.Settles r k) ∧
    ∀ k, s.Settles r k → ∃ i : Fin s.size, LogRelay.pick? s.size s.nonempty (r.nth k) = some i ∧
      s.choose r = (s.addresses.get i, r.skip (8 * (k + 1))) := by
  refine ⟨fun i => card_pick? s.nonempty hs i, s.exists_settles r, fun k hk => ?_⟩
  obtain ⟨hpick, hrest⟩ := choose_of_settles hk
  obtain ⟨i, hi, haddress⟩ := Option.map_eq_some_iff.1 hpick
  exact ⟨i, hi, Prod.ext haddress.symm hrest⟩

/-- Three collectors. -/
def three : AddressSet := ⟨[⟨"tcp://a:5005"⟩, ⟨"tcp://b:5005"⟩, ⟨"tcp://c:5005"⟩], by decide⟩

/-- A source whose first word three addresses refuse, and whose second one chooses the last of them. -/
def refusedOnce : Random := ⟨[0, 0, 0, 0, 0, 0, 0, 0x40, 0, 0, 0, 0, 0, 0, 0, 0xB0], 0⟩

theorem chooses_fairly_refusedOnce : three.size < 2 ^ 64 ∧
    Nat.card {w : UInt64 // LogRelay.pick? three.size three.nonempty w = some ⟨2, by decide⟩} = 2 ^ 62 ∧
    three.Settles refusedOnce 1 ∧
    three.choose refusedOnce = (⟨"tcp://c:5005"⟩, refusedOnce.skip 16) := by
  have hsize : three.size < 2 ^ 64 := by decide
  have hsettles : three.Settles refusedOnce 1 := ⟨by decide, by decide⟩
  obtain ⟨hcard, -, hchoose⟩ := chooses_fairly three hsize refusedOnce
  have hzeros : (BitVec.ofNat 64 three.size).clz.toNat = 62 := by decide
  have hlast := hcard ⟨2, by decide⟩
  rw [hzeros] at hlast
  refine ⟨hsize, hlast, hsettles, ?_⟩
  obtain ⟨i, hi, hresult⟩ := hchoose 1 hsettles
  have hindex : LogRelay.pick? three.size three.nonempty (refusedOnce.nth 1) = some ⟨2, by decide⟩ := by
    decide
  obtain rfl := Option.some.inj (hi.symm.trans hindex)
  exact hresult

end AddressSet

end LogRelay
