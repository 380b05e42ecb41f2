import LogRelay.Box.Seal
import Mathlib.Data.List.Basic

/-!
# What opens a box

A box is told octet by octet, by the places of the key stream: the first 32 octets are the key of the
authenticator, and the octet of the text at place `i` is hidden by the one at place `32 + i`.  Opening gives a
text back exactly if it was boxed in this way.

* `Salsa.octet`, `Salsa.getElem?_stream`: the key stream across its blocks;
* `Box.IsBoxOf`, `Box.isBoxOf_iff`: what a box is, and that `Box.box` makes it;
* `Box.reveal_eq_ok_iff`, `Box.reveal_eq_forged_iff`: when a message opens, and when it does not;
* `Box.opens_exactly`: **what one end seals opens at the other end, and nothing else does**.
-/

namespace LogRelay

/-! ### The key stream -/

namespace Salsa

/-- The octet of the extended stream at place `i`, which is in block `i / 64`. -/
def octet (key nonce : Bytes) (i : Nat) : UInt8 :=
  (block (derive key (nonce.take 16)) (nonce.drop 16) (i / 64)).getD (i % 64) 0

theorem getElem?_blocks (key nonce : Bytes) {n i : Nat} (counter : Nat) (h : i < 64 * n) :
    (blocks key nonce counter n)[i]? = (block key nonce (counter + i / 64))[i % 64]? := by
  induction n generalizing counter i with
  | zero => omega
  | succ n ih =>
    rw [blocks]
    by_cases hfirst : i < 64
    · rw [List.getElem?_append_left (by rwa [length_block]), Nat.div_eq_of_lt hfirst,
        Nat.mod_eq_of_lt hfirst, Nat.add_zero]
    · obtain ⟨j, rfl⟩ : ∃ j, i = j + 64 := ⟨i - 64, by omega⟩
      rw [List.getElem?_append_right (by rw [length_block]; omega), length_block, Nat.add_sub_cancel,
        ih (counter + 1) (by omega), Nat.add_div_right j (by omega), Nat.add_mod_right, Nat.add_right_comm]
      rfl

/-- The stream goes on from block to block. -/
theorem getElem?_stream (key nonce : Bytes) {count i : Nat} (h : i < count) :
    (stream key nonce count)[i]? = some (octet key nonce i) := by
  have hplace : i % 64 < (block (derive key (nonce.take 16)) (nonce.drop 16) (i / 64)).length := by
    rw [length_block]
    omega
  rw [stream, List.getElem?_take_of_lt h, getElem?_blocks _ _ 0 (by omega), Nat.zero_add, octet,
    List.getD_eq_getElem?_getD, List.getElem?_eq_getElem hplace, Option.getD_some]

end Salsa

namespace Box

variable {b : Box} {nonce plain boxed : Bytes}

theorem tagKey_eq (b : Box) (nonce : Bytes) :
    b.tagKey nonce = (List.range 32).map (Salsa.octet b.key nonce) := by
  apply List.ext_getElem?
  intro i
  by_cases h : i < 32
  · rw [tagKey, Salsa.getElem?_stream _ _ h]
    simp [h]
  · rw [List.getElem?_eq_none (by rw [tagKey, Salsa.length_stream]; omega),
      List.getElem?_eq_none (by simp; omega)]

theorem getElem?_pad (b : Box) (nonce : Bytes) {n i : Nat} (h : i < n) :
    (b.pad nonce n)[i]? = some (Salsa.octet b.key nonce (32 + i)) := by
  rw [pad, List.getElem?_drop, Salsa.getElem?_stream _ _ (by omega)]

/-- Octet by octet, what hides a text. -/
theorem getElem?_mask_pad (b : Box) (nonce plain : Bytes) (i : Nat) :
    (mask (b.pad nonce plain.length) plain)[i]? =
      plain[i]?.map fun p => p ^^^ Salsa.octet b.key nonce (32 + i) := by
  rw [mask, List.getElem?_zipWith]
  by_cases h : i < plain.length
  · rw [getElem?_pad b nonce h, List.getElem?_eq_getElem h]
    simp only [Option.map_some, UInt8.xor_comm]
  · rw [List.getElem?_eq_none (Nat.le_of_not_lt h)]
    simp

/-! ### What a box is -/

/-- A tag of sixteen octets, and behind it the octets of a text, each hidden by the octet of the key stream that
stands 32 places further on.  The tag authenticates what is behind it, under the first 32 octets of the stream. -/
structure IsBoxOf (b : Box) (nonce plain boxed : Bytes) : Prop where
  length : boxed.length = tagSize + plain.length
  hidden : ∀ i, boxed[tagSize + i]? = plain[i]?.map fun p => p ^^^ Salsa.octet b.key nonce (32 + i)
  tag : boxed.take tagSize =
    Poly1305.tag ((List.range 32).map (Salsa.octet b.key nonce)) (boxed.drop tagSize)

theorem drop_box (b : Box) (nonce plain : Bytes) :
    (b.box nonce plain).drop tagSize = mask (b.pad nonce plain.length) plain :=
  List.drop_left' (Poly1305.length_tag _ _)

theorem take_box (b : Box) (nonce plain : Bytes) :
    (b.box nonce plain).take tagSize =
      Poly1305.tag (b.tagKey nonce) (mask (b.pad nonce plain.length) plain) :=
  List.take_left' (Poly1305.length_tag _ _)

/-- **There is one box of a text under a nonce, the one that sealing makes.** -/
theorem isBoxOf_iff : b.IsBoxOf nonce plain boxed ↔ boxed = b.box nonce plain := by
  constructor
  · intro h
    have hdrop : boxed.drop tagSize = mask (b.pad nonce plain.length) plain := by
      apply List.ext_getElem?
      intro i
      rw [List.getElem?_drop, h.hidden, getElem?_mask_pad]
    rw [← List.take_append_drop tagSize boxed, h.tag, hdrop, ← tagKey_eq]
    rfl
  · rintro rfl
    refine ⟨length_box b nonce plain, fun i => ?_, ?_⟩
    · rw [← List.getElem?_drop, drop_box, getElem?_mask_pad]
    · rw [take_box, drop_box, tagKey_eq]

/-! ### What opens -/

theorem unbox?_eq_some_iff : b.unbox? nonce boxed = some plain ↔ b.IsBoxOf nonce plain boxed := by
  rw [isBoxOf_iff]
  constructor
  · exact eq_box_of_unbox?
  · rintro rfl
    exact unbox?_box b nonce plain

theorem reveal_eq_ok_iff :
    b.reveal nonce boxed = .ok plain ↔ nonce.length = nonceSize ∧ b.IsBoxOf nonce plain boxed := by
  rw [isBoxOf_iff]
  constructor
  · exact eq_box_of_reveal
  · rintro ⟨hn, rfl⟩
    exact reveal_box b nonce plain hn

theorem reveal_of_not_isBoxOf (hn : nonce.length = nonceSize)
    (hnone : ∀ plain, ¬ b.IsBoxOf nonce plain boxed) : b.reveal nonce boxed = .error .forged := by
  rw [reveal, if_neg (not_not.2 hn)]
  cases hopen : b.unbox? nonce boxed with
  | none => rfl
  | some plain => exact absurd (unbox?_eq_some_iff.1 hopen) (hnone plain)

/-- A message does not open if it is no box of any text: it is shorter than a tag, or its tag is a wrong one. -/
theorem reveal_eq_forged_iff (hn : nonce.length = nonceSize) :
    b.reveal nonce boxed = .error .forged ↔
      boxed.length < tagSize ∨ boxed.take tagSize ≠
        Poly1305.tag ((List.range 32).map (Salsa.octet b.key nonce)) (boxed.drop tagSize) := by
  rw [← tagKey_eq, ← Nat.not_le, ne_eq, ← not_and_or, reveal, if_neg (not_not.2 hn), unbox?]
  by_cases htag : tagSize ≤ boxed.length ∧
      boxed.take tagSize = Poly1305.tag (b.tagKey nonce) (boxed.drop tagSize)
  · simp [htag]
  · simp [htag]

/-- **What one end seals opens at the other end, and nothing else does.**  Let both ends share a key.  A text is
always sealed under the next 24 octets of the random source, as a ciphertext of sixteen octets more, and the
other end opens it to the same text.  Whatever opens there to a text is the one box of that text under its nonce;
so two ciphertexts do not open to one text under one nonce.  Under a nonce of the right length all else is
refused as forged, and under any other nonce everything is refused, with the length that the nonce has. -/
theorem opens_exactly {mine theirs : Keys} (hagree : ofKeys mine = ofKeys theirs) :
    (∀ plain r,
      let s := ((ofKeys mine).sealed plain r).1
      s.nonce = (r.draw nonceSize).1 ∧ s.nonce.length = 24 ∧ s.ciphertext.length = plain.length + 16 ∧
        (ofKeys theirs).reveal s.nonce s.ciphertext = .ok plain) ∧
    (∀ nonce c plain, (ofKeys theirs).reveal nonce c = .ok plain ↔
      nonce.length = 24 ∧ (ofKeys theirs).IsBoxOf nonce plain c) ∧
    (∀ nonce c c' plain, (ofKeys theirs).reveal nonce c = .ok plain →
      (ofKeys theirs).reveal nonce c' = .ok plain → c = c') ∧
    (∀ nonce c, nonce.length = 24 → (∀ plain, ¬ (ofKeys theirs).IsBoxOf nonce plain c) →
      (ofKeys theirs).reveal nonce c = .error .forged) ∧
    (∀ nonce c, nonce.length = 24 → ((ofKeys theirs).reveal nonce c = .error .forged ↔
      c.length < 16 ∨ c.take 16 ≠
        Poly1305.tag ((List.range 32).map (Salsa.octet (ofKeys theirs).key nonce)) (c.drop 16))) ∧
    (∀ nonce c, nonce.length ≠ 24 →
      (ofKeys theirs).reveal nonce c = .error (.nonceLength 24 nonce.length)) := by
  refine ⟨fun plain r => ?_, fun nonce c plain => reveal_eq_ok_iff, fun nonce c c' plain h h' => ?_,
    fun nonce c hn hnone => ?_, fun nonce c hn => reveal_eq_forged_iff hn, fun nonce c hn => if_pos hn⟩
  · have hlength : (r.draw nonceSize).1.length = nonceSize := Bytes.length_takePadded _ _
    refine ⟨rfl, hlength, (length_box _ _ _).trans (Nat.add_comm _ _), ?_⟩
    rw [hagree]
    exact reveal_box _ _ _ hlength
  · rw [isBoxOf_iff.1 (reveal_eq_ok_iff.1 h).2, isBoxOf_iff.1 (reveal_eq_ok_iff.1 h').2]
  · exact reveal_of_not_isBoxOf hn hnone

/-! ### Two ends -/

/-- The secrets of two ends. -/
def secrets : Key × Key := (⟨List.replicate keySize 1, rfl⟩, ⟨List.replicate keySize 2, rfl⟩)

/-- Each end has the public key of the other. -/
def ends : Keys × Keys := (⟨secrets.2.publicOf, secrets.1⟩, ⟨secrets.1.publicOf, secrets.2⟩)

theorem opens_exactly_ends :
    ofKeys ends.1 = ofKeys ends.2 ∧
      (ofKeys ends.2).reveal ((ofKeys ends.1).sealed [104, 105] ⟨[7, 7], 0⟩).1.nonce
        ((ofKeys ends.1).sealed [104, 105] ⟨[7, 7], 0⟩).1.ciphertext = .ok [104, 105] := by
  have hpoint : Curve.multiply (Curve.scalar ends.1.ourSecret.bytes) (Curve.coordinate ends.1.theirPublic.bytes)
      = Curve.multiply (Curve.scalar ends.2.ourSecret.bytes) (Curve.coordinate ends.2.theirPublic.bytes) := by
    decide +kernel
  have hagree : ofKeys ends.1 = ofKeys ends.2 :=
    congrArg (fun n => Box.mk (Salsa.derive (Bytes.ofNatLE 32 n) (List.replicate 16 0))) hpoint
  obtain ⟨-, -, -, hopens⟩ := (opens_exactly hagree).1 [104, 105] ⟨[7, 7], 0⟩
  exact ⟨hagree, hopens⟩

end Box

end LogRelay
