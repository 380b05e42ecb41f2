import LogRelay.Box.Keys
import LogRelay.Box.Poly1305
import LogRelay.Box.Salsa

/-!
# Sealing and opening

A `Box` is the key that two ends share.  `Box.box` encrypts a text under a nonce of 24 octets: the first 32
octets of the stream are the key of the authenticator, the rest is added to the text, and the tag of the
result stands in front of it.  `Box.reveal` checks the tag before it decrypts.

* `Box.sealed`: boxes under a nonce drawn from the random source;
* `Box.reveal`: the text of a sealed message, or why there is none;
* `reveal_box`: what is boxed under a nonce of the right length opens again;
* `eq_box_of_reveal`: whatever opens was boxed.
-/

namespace LogRelay

/-- The number of octets in a nonce. -/
def nonceSize : Nat := 24

/-- The number of octets in a tag. -/
def tagSize : Nat := 16

/-- Why a message was not sealed or opened. -/
inductive BoxFault where
  | unsealable
  /-- The message was not made with these keys, or was changed since. -/
  | forged
  | nonceLength (expected actual : Nat)
deriving DecidableEq, Repr

/-- The wording of a fault. -/
def BoxFault.message : BoxFault → String
  | unsealable => "failed to seal message"
  | forged => "failed to open message: authentication failed"
  | nonceLength expected actual => s!"nonce must be {expected} bytes, got {actual}"

/-- A nonce and what was sealed under it. -/
structure Sealed where
  nonce : Bytes
  /-- The tag and the encrypted text. -/
  ciphertext : Bytes
deriving DecidableEq, Repr

/-- The key that two ends share. -/
structure Box where
  key : Bytes
deriving DecidableEq

namespace Box

/-- The box of one end's keys. -/
def ofKeys (k : Keys) : Box :=
  ⟨Salsa.derive (Curve.agree k.theirPublic.bytes k.ourSecret.bytes) (List.replicate 16 0)⟩

/-- The name of a box for people to read; it gives nothing away. -/
def describe (_ : Box) : String := "BoxSession"

/-- Adds a key stream to a text, octet by octet.  Adding it twice gives the text back. -/
def mask (stream text : Bytes) : Bytes := List.zipWith (· ^^^ ·) stream text

theorem mask_mask (stream text : Bytes) (h : stream.length = text.length) :
    mask stream (mask stream text) = text := by
  induction stream generalizing text with
  | nil => simpa [mask] using h.symm
  | cons s stream ih =>
    cases text with
    | nil => simp at h
    | cons t text =>
      have ht : s ^^^ (s ^^^ t) = t := by
        rw [← UInt8.xor_assoc, UInt8.xor_self, UInt8.zero_xor]
      have := ih text (by simpa using h)
      simp only [mask, List.zipWith_cons_cons, ht] at this ⊢
      rw [this]

theorem length_mask (stream text : Bytes) (h : stream.length = text.length) :
    (mask stream text).length = text.length := by
  simp [mask, h]

/-- The key of the authenticator under a nonce. -/
def tagKey (b : Box) (nonce : Bytes) : Bytes := Salsa.stream b.key nonce 32

/-- The part of the stream that hides a text of `n` octets. -/
def pad (b : Box) (nonce : Bytes) (n : Nat) : Bytes := (Salsa.stream b.key nonce (32 + n)).drop 32

@[simp] theorem length_pad (b : Box) (nonce : Bytes) (n : Nat) : (b.pad nonce n).length = n := by
  simp [pad]

/-- The tag and the encrypted text of `plain`. -/
def box (b : Box) (nonce plain : Bytes) : Bytes :=
  let hidden := mask (b.pad nonce plain.length) plain
  Poly1305.tag (b.tagKey nonce) hidden ++ hidden

/-- The text of a boxed message, if its tag is right. -/
def unbox? (b : Box) (nonce boxed : Bytes) : Option Bytes :=
  let hidden := boxed.drop tagSize
  if tagSize ≤ boxed.length ∧ boxed.take tagSize = Poly1305.tag (b.tagKey nonce) hidden then
    some (mask (b.pad nonce hidden.length) hidden)
  else none

/-- The text of a message that the other end sealed. -/
def reveal (b : Box) (nonce ciphertext : Bytes) : Except BoxFault Bytes :=
  if nonce.length ≠ nonceSize then .error (.nonceLength nonceSize nonce.length)
  else
    match b.unbox? nonce ciphertext with
    | some plain => .ok plain
    | none => .error .forged

/-- A text sealed under a given nonce. -/
def sealWith (b : Box) (nonce plain : Bytes) : Sealed := ⟨nonce, b.box nonce plain⟩

/-- Seals a text under a nonce drawn from the random source. -/
def sealed (b : Box) (plain : Bytes) (r : Random) : Sealed × Random :=
  (b.sealWith (r.draw nonceSize).1 plain, (r.draw nonceSize).2)

/-- Seals texts one after the other, each under a nonce of its own. -/
def sealAll (b : Box) : List Bytes → Random → List Sealed × Random
  | [], r => ([], r)
  | plain :: plains, r =>
    let (s, r) := b.sealed plain r
    let (rest, r) := sealAll b plains r
    (s :: rest, r)

/-! ### Opening undoes boxing -/

theorem length_box (b : Box) (nonce plain : Bytes) :
    (b.box nonce plain).length = tagSize + plain.length := by
  simp [box, length_mask, tagSize]

theorem unbox?_box (b : Box) (nonce plain : Bytes) : b.unbox? nonce (b.box nonce plain) = some plain := by
  have htag := Poly1305.length_tag (b.tagKey nonce) (mask (b.pad nonce plain.length) plain)
  have hlen := length_mask (b.pad nonce plain.length) plain (by simp)
  simp only [unbox?, box, tagSize, List.drop_left' htag, List.take_left' htag, List.length_append, htag,
    hlen]
  simp [mask_mask]

theorem eq_box_of_unbox? {b : Box} {nonce boxed plain : Bytes} (h : b.unbox? nonce boxed = some plain) :
    boxed = b.box nonce plain := by
  simp only [unbox?] at h
  split at h
  next hc =>
    obtain ⟨_, htag⟩ := hc
    cases h
    have hlen := length_mask (b.pad nonce (boxed.drop tagSize).length) (boxed.drop tagSize) (by simp)
    rw [box, hlen, mask_mask _ _ (by simp), ← htag, List.take_append_drop]
  next => exact absurd h (by simp)

theorem reveal_box (b : Box) (nonce plain : Bytes) (h : nonce.length = nonceSize) :
    b.reveal nonce (b.box nonce plain) = .ok plain := by
  simp [reveal, h, unbox?_box]

theorem eq_box_of_reveal {b : Box} {nonce ciphertext plain : Bytes}
    (h : b.reveal nonce ciphertext = .ok plain) :
    nonce.length = nonceSize ∧ ciphertext = b.box nonce plain := by
  simp only [reveal] at h
  split at h
  · exact absurd h (by simp)
  next hn =>
    split at h
    next p hp =>
      cases h
      exact ⟨by simpa using hn, eq_box_of_unbox? hp⟩
    next => exact absurd h (by simp)

end Box

end LogRelay
