import LogRelay.Proofs.Zlib.Code
import LogRelay.Proofs.Zlib.Recipe

/-!
# A stream gives its data back

Writing and reading are taken part by part: octets and bits, numbers in their ranges, words of the fixed
codes, steps, the block, the checksum.  Each part is read back whatever follows it, so the parts can be put
one behind the other.

* `Bits.ofBytes_toBytes`: octets of bits, up to the zeros at the end;
* `Gapless`, `takeRange_writeRange`: a number below the end of ranges without a gap;
* `takeSteps_writeSteps`: steps within the bounds of the alphabets;
* `inflate_deflate`: **what was compressed is decompressed to itself**.
-/

namespace LogRelay.Zlib

/-! ### Octets and bits -/

namespace Bits

@[simp] theorem length_ofBytes (bs : Bytes) : (ofBytes bs).length = 8 * bs.length := by
  induction bs with
  | nil => rfl
  | cons b bs ih =>
    simp only [ofBytes, List.flatMap_cons, List.length_append, length_ofNat, List.length_cons] at ih ⊢
    omega

@[simp] theorem ofBytes_append (as bs : Bytes) : ofBytes (as ++ bs) = ofBytes as ++ ofBytes bs :=
  List.flatMap_append

theorem ofBytes_cons (b : UInt8) (bs : Bytes) : ofBytes (b :: bs) = ofNat 8 b.toNat ++ ofBytes bs :=
  List.flatMap_cons

theorem toNat_lt (bs : Bits) : toNat bs < count bs.length := by
  induction bs with
  | nil => decide
  | cons b bs ih =>
    have hb : value b ≤ 1 := by cases b <;> decide
    simp only [toNat, List.length_cons, count]
    omega

theorem count_le {m n : Nat} (h : m ≤ n) : count m ≤ count n := by
  induction h with
  | refl => exact Nat.le_refl _
  | step _ ih =>
    simp only [count]
    omega

theorem ofNat_zero (width : Nat) : ofNat width 0 = List.replicate width false := by
  induction width with
  | zero => rfl
  | succ width ih => simp [ofNat, ih, List.replicate_succ]

/-- The bits of a number, with zeros where there were none. -/
theorem ofNat_toNat (bs : Bits) (k : Nat) :
    ofNat (bs.length + k) (toNat bs) = bs ++ List.replicate k false := by
  induction bs with
  | nil => simp [toNat, ofNat_zero]
  | cons b bs ih =>
    have hm : ((value b + 2 * toNat bs) % 2 == 1) = b := by cases b <;> simp [value]
    have hd : (value b + 2 * toNat bs) / 2 = toNat bs := by
      have hv : value b ≤ 1 := by cases b <;> decide
      omega
    rw [List.length_cons, show bs.length + 1 + k = bs.length + k + 1 by omega, toNat, ofNat, hm, hd, ih,
      List.cons_append]

/-- An octet holds eight bits. -/
theorem ofBytes_ofNat_toNat (bs : Bits) (k : Nat) (h : bs.length + k = 8) :
    ofBytes [UInt8.ofNat (toNat bs)] = bs ++ List.replicate k false := by
  have hlt : toNat bs < 256 := Nat.lt_of_lt_of_le (toNat_lt bs) (count_le (n := 8) (by omega))
  rw [ofBytes_cons, UInt8.toNat_ofNat_of_lt' hlt, ← h, ofNat_toNat]
  simp [ofBytes]

/-- Octets of bits are read as these bits; fewer than eight zeros follow. -/
theorem ofBytes_toBytes (bs : Bits) :
    ∃ k < 8, ofBytes (toBytes bs) = bs ++ List.replicate k false := by
  fun_induction toBytes bs with
  | case1 b₀ b₁ b₂ b₃ b₄ b₅ b₆ b₇ rest ih =>
    obtain ⟨k, hk, he⟩ := ih
    refine ⟨k, hk, ?_⟩
    have h := ofBytes_ofNat_toNat [b₀, b₁, b₂, b₃, b₄, b₅, b₆, b₇] 0 rfl
    rw [← List.singleton_append, ofBytes_append, he, h]
    rfl
  | case2 => exact ⟨0, by decide, rfl⟩
  | case3 last hlong hnil =>
    have hlen : last.length < 8 ∧ last.length ≠ 0 := by
      refine ⟨Nat.lt_of_not_le fun hge => ?_, by simpa using hnil⟩
      match last, hge with
      | b₀ :: b₁ :: b₂ :: b₃ :: b₄ :: b₅ :: b₆ :: b₇ :: rest, _ => exact hlong _ _ _ _ _ _ _ _ _ rfl
    exact ⟨8 - last.length, by omega, ofBytes_ofNat_toNat _ _ (by omega)⟩

/-- Octets are read one by one. -/
theorem takeNats_ofBytes (bs : Bytes) (rest : Bits) :
    takeNats 8 bs.length (ofBytes bs ++ rest) = .ok (bs.map UInt8.toNat, rest) := by
  induction bs with
  | nil => rfl
  | cons b bs ih =>
    rw [ofBytes_cons, List.append_assoc, List.length_cons, takeNats,
      takeNat_ofNat 8 b.toNat (UInt8.toNat_lt b)]
    simp only [bind, Except.bind, ih]
    rfl

end Bits

/-- Behind zeros that fill up an octet, the octets are in line again. -/
theorem align_replicate {k : Nat} (hk : k < 8) (bs : Bytes) :
    align (List.replicate k false ++ Bits.ofBytes bs) = Bits.ofBytes bs := by
  have hm : (List.replicate k false ++ Bits.ofBytes bs).length % 8 = k := by
    simp only [List.length_append, List.length_replicate, Bits.length_ofBytes]
    omega
  rw [align, hm]
  simp

/-! ### Ranges -/

/-- Each range starts no later than the one before it ends, and the last ends no earlier than `limit`. -/
def Gapless (limit : Nat) : List Range → Prop
  | [] => False
  | [r] => limit ≤ r.base + Bits.count r.width
  | r :: s :: rs => s.base ≤ r.base + Bits.count r.width ∧ Gapless limit (s :: rs)

theorem Gapless.exists_range {limit n : Nat} (hn : n < limit) {r : Range} {rs : List Range}
    (h : Gapless limit (r :: rs)) (hr : r.base ≤ n) :
    ∃ s, (r :: rs)[((r :: rs).takeWhile fun r => r.base ≤ n).length - 1]? = some s ∧
      s.base ≤ n ∧ n - s.base < Bits.count s.width := by
  induction rs generalizing r with
  | nil =>
    have h : limit ≤ r.base + Bits.count r.width := h
    exact ⟨r, by simp [hr], hr, by omega⟩
  | cons s rs ih =>
    obtain ⟨hs, h⟩ := h
    by_cases hsn : s.base ≤ n
    · obtain ⟨t, ht, hb⟩ := ih h hsn
      refine ⟨t, ?_, hb⟩
      simpa [List.takeWhile_cons, hr, hsn] using ht
    · exact ⟨r, by simp [hr, hsn], hr, by omega⟩

/-- The range of a number holds it. -/
theorem exists_range {limit n : Nat} {ranges : Array Range} (h : Gapless limit ranges.toList)
    (hl : ∀ r ∈ ranges.toList.head?, r.base ≤ n) (hn : n < limit) :
    ∃ r, ranges[rangeIndex ranges n]? = some r ∧ r.base ≤ n ∧ n - r.base < Bits.count r.width := by
  obtain ⟨rs, rfl⟩ : ∃ rs, ranges = List.toArray rs := ⟨ranges.toList, rfl⟩
  cases rs with
  | nil => exact h.elim
  | cons r rs =>
    obtain ⟨s, hs, hb⟩ := h.exists_range hn (hl r rfl)
    exact ⟨s, by simpa [rangeIndex] using hs, hb⟩

theorem gapless_lengths : Gapless (maxLength + 1) lengths.toList := by
  simp [lengths, Gapless, Bits.count, maxLength]

theorem gapless_distances : Gapless (maxDistance + 1) distances.toList := by
  simp [distances, Gapless, Bits.count, maxDistance]

/-! ### Steps -/

/-- A number is written as the word of its range and a tail that gives its place there. -/
theorem writeRange_eq {limit n : Nat} {ranges : Array Range} (h : Gapless limit ranges.toList)
    (hl : ∀ r ∈ ranges.toList.head?, r.base ≤ n) (hn : n < limit) (words : Array Bits) (first : Nat) :
    ∃ i < ranges.size, ∃ tail : Bits,
      writeRange words first ranges n = words.getD (first + i) [] ++ tail ∧
        ∀ rest, takeRange ranges i (tail ++ rest) = .ok (n, rest) := by
  obtain ⟨r, hr, hb, hw⟩ := exists_range h hl hn
  obtain ⟨hi, -⟩ := Array.getElem?_eq_some_iff.1 hr
  refine ⟨rangeIndex ranges n, hi, Bits.ofNat r.width (n - r.base), ?_, fun rest => ?_⟩
  · have hg : ranges.getD (rangeIndex ranges n) ⟨0, 0⟩ = r := by
      rw [Array.getD_eq_getD_getElem?, hr, Option.getD_some]
    simp only [writeRange, hg]
  · simp only [takeRange, hr, Bits.takeNat_ofNat _ _ hw, Nat.add_sub_cancel' hb]

theorem takeCopy_writeRange {place length distance : Nat} {tail : Bits} (hd : 0 < distance)
    (hm : distance ≤ maxDistance)
    (hp : ∀ rest, takeRange lengths place (tail ++ rest) = .ok (length, rest)) (rest : Bits) :
    takeCopy fixedDistanceCode place
        (tail ++ (writeRange fixedDistanceWords 0 distances distance ++ rest)) =
      .ok (.copy length distance, rest) := by
  obtain ⟨i, hi, dtail, he, ht⟩ := writeRange_eq gapless_distances
    (by rintro r ⟨⟩; exact hd) (Nat.lt_succ_of_le hm) fixedDistanceWords 0
  have hi : i < 32 := Nat.lt_trans hi (by decide)
  rw [Nat.zero_add] at he
  simp only [takeCopy, hp, he, List.append_assoc, decode_fixedDistanceWords hi, ht, bind, Except.bind,
    pure, Except.pure]

theorem takeSteps_octet {code distanceCode : Code} {made : List Step} {bs rest : Bits} {symbol : Nat}
    {b : UInt8} (h : code.decode bs = .ok (symbol, rest)) (hm : Meaning.ofSymbol symbol = .octet b) :
    takeSteps code distanceCode made bs = takeSteps code distanceCode (.literal b :: made) rest := by
  rw [takeSteps]
  split <;> simp_all

theorem takeSteps_finish {code distanceCode : Code} {made : List Step} {bs rest : Bits} {symbol : Nat}
    (h : code.decode bs = .ok (symbol, rest)) (hm : Meaning.ofSymbol symbol = .finish) :
    takeSteps code distanceCode made bs = .ok (made, rest) := by
  rw [takeSteps]
  split <;> simp_all

theorem takeSteps_length {code distanceCode : Code} {made : List Step} {bs rest rest' : Bits}
    {symbol place : Nat} {step : Step} (h : code.decode bs = .ok (symbol, rest))
    (hm : Meaning.ofSymbol symbol = .length place)
    (hc : takeCopy distanceCode place rest = .ok (step, rest')) :
    takeSteps code distanceCode made bs = takeSteps code distanceCode (step :: made) rest' := by
  rw [takeSteps]
  split
  · simp_all
  · simp_all
    split <;> simp_all

theorem Meaning.ofSymbol_octet (b : UInt8) : ofSymbol b.toNat = .octet b := by
  have hb : b.toNat < endOfBlock := UInt8.toNat_lt b
  simp [ofSymbol, hb]

theorem Meaning.ofSymbol_length (place : Nat) : ofSymbol (firstLength + place) = .length place := by
  have hlt : ¬ firstLength + place < endOfBlock := by
    unfold firstLength endOfBlock
    omega
  have hne : ¬ firstLength + place = endOfBlock := by
    unfold firstLength endOfBlock
    omega
  rw [ofSymbol, if_neg hlt, if_neg hne, Nat.add_sub_cancel_left]

/-- A step that was written is read. -/
theorem takeSteps_writeStep {step : Step} (h : step.Admissible) (made : List Step) (rest : Bits) :
    takeSteps fixedCode fixedDistanceCode made (writeStep step ++ rest) =
      takeSteps fixedCode fixedDistanceCode (step :: made) rest := by
  cases step with
  | literal b =>
    have hb : b.toNat < 288 := Nat.lt_trans (UInt8.toNat_lt b) (by decide)
    exact takeSteps_octet (decode_fixedWords hb rest) (Meaning.ofSymbol_octet b)
  | copy length distance =>
    obtain ⟨hmin, hmax, hd, hm⟩ := h
    obtain ⟨i, hi, tail, he, ht⟩ := writeRange_eq gapless_lengths
      (by rintro r ⟨⟩; exact hmin) (Nat.lt_succ_of_le hmax) fixedWords firstLength
    have hi : firstLength + i < 288 := by
      have hs : lengths.size = 29 := rfl
      unfold firstLength
      omega
    rw [writeStep, he, List.append_assoc, List.append_assoc]
    exact takeSteps_length (decode_fixedWords hi _) (Meaning.ofSymbol_length i)
      (takeCopy_writeRange hd hm ht rest)

theorem takeSteps_writeSteps {steps : List Step} (h : ∀ step ∈ steps, step.Admissible)
    (made : List Step) (rest : Bits) :
    takeSteps fixedCode fixedDistanceCode made (writeSteps steps ++ rest) =
      .ok (steps.reverse ++ made, rest) := by
  induction steps generalizing made with
  | nil =>
    have hend : endOfBlock < 288 := by decide
    rw [writeSteps, List.flatMap_nil, List.nil_append]
    exact takeSteps_finish (decode_fixedWords hend rest) rfl
  | cons step steps ih =>
    have hs : writeSteps (step :: steps) ++ rest = writeStep step ++ (writeSteps steps ++ rest) := by
      simp [writeSteps]
    rw [hs, takeSteps_writeStep (h step List.mem_cons_self),
      ih fun s hs => h s (List.mem_cons_of_mem _ hs)]
    simp

/-! ### Streams -/

/-- The block of steps that is the only one is read as these steps. -/
theorem takeRecipe_block {steps : List Step} (h : ∀ step ∈ steps, step.Admissible) (rest : Bits) :
    takeRecipe (Bits.ofNat 1 1 ++ Bits.ofNat 2 1 ++ writeSteps steps ++ rest) = .ok (steps, rest) := by
  have hb : takeBlock [] (Bits.ofNat 1 1 ++ Bits.ofNat 2 1 ++ writeSteps steps ++ rest) =
      .ok (true, steps.reverse, rest) := by
    simp only [takeBlock, List.append_assoc, Bits.takeNat_ofNat 1 1 (by decide),
      Bits.takeNat_ofNat 2 1 (by decide), takeSteps_writeSteps h, bind, Except.bind, pure, Except.pure]
    simp
  simp only [takeRecipe, takeBlocks, hb, bind, Except.bind]
  simp [Except.map]

theorem Checksum.length_write (c : Checksum) : c.write.length = 4 := by
  simp [write]

/-- **What was compressed is decompressed to itself.** -/
theorem inflate_deflate (data : Bytes) : inflate (deflate data) = .ok data := by
  obtain ⟨k, hk, hbits⟩ := Bits.ofBytes_toBytes
    (Bits.ofNat 1 1 ++ Bits.ofNat 2 1 ++ writeSteps (recipe data))
  have hadmissible : ∀ step ∈ recipe data, step.Admissible := fun _ => admissible_of_mem_recipe
  have hrecipe := takeRecipe_block hadmissible
    (List.replicate k false ++ Bits.ofBytes (Checksum.ofBytes data).write)
  have hsums := Bits.takeNats_ofBytes (Checksum.ofBytes data).write []
  rw [Checksum.length_write, List.append_nil] at hsums
  have hheader : isHeader 0x78 0x5E = true := by decide
  simp only [deflate, header, List.cons_append, List.nil_append, inflate, hheader, if_true, bind,
    Except.bind]
  rw [Bits.ofBytes_append, hbits, List.append_assoc, hrecipe]
  simp only [align_replicate hk, hsums, expand_recipe, if_true]
  rfl

end LogRelay.Zlib
