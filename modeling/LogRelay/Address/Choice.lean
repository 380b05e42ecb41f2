import LogRelay.Address.Basic
import LogRelay.Random

/-!
# Choosing a collector

An `AddressSet` is a nonempty list of addresses.  One of `n` addresses is chosen by a random 64-bit word
`w`: the product `w * n` has a high and a low half of 64 bits, the high half is the index, and the word is
refused if the low half is beyond `zone n`.  Refusing makes all indices equally likely.

* `pick? n w`: the index that a word chooses, if it is not refused;
* `AddressSet.choose`: draws words until one is not refused.
-/

namespace LogRelay

/-- The greatest low half that is not refused in a choice among `n`. -/
def zone (n : Nat) : Nat := n <<< (63 - n.log2) - 1

/-- The index below `n` that a word chooses, or `none` if the word is refused. -/
def pick? (n : Nat) (hn : 0 < n) (w : UInt64) : Option (Fin n) :=
  if w.toNat * n % 0x10000000000000000 ≤ zone n then
    some ⟨w.toNat * n / 0x10000000000000000, by
      have hw := w.toNat_lt
      exact Nat.div_lt_of_lt_mul (Nat.mul_lt_mul_of_pos_right hw hn)⟩
  else none

/-- The word zero is never refused. -/
theorem pick?_zero (n : Nat) (hn : 0 < n) : pick? n hn 0 = some ⟨0, hn⟩ := by
  simp [pick?]

/-- A nonempty list of addresses to choose from. -/
structure AddressSet where
  addresses : List Address
  nonempty : 0 < addresses.length
deriving DecidableEq

namespace AddressSet

/-- The addresses of a list, unless it is empty. -/
def ofList (l : List Address) : Except AddressFault AddressSet :=
  if h : 0 < l.length then .ok ⟨l, h⟩ else .error .noServers

/-- The number of addresses. -/
def size (s : AddressSet) : Nat := s.addresses.length

/-- The address that a word chooses, or `none` if the word is refused. -/
def pick? (s : AddressSet) (w : UInt64) : Option Address :=
  (LogRelay.pick? s.addresses.length s.nonempty w).map s.addresses.get

theorem pick?_zero_isSome (s : AddressSet) : (s.pick? 0).isSome = true := by
  simp [pick?, LogRelay.pick?_zero]

/-- Draws words until one chooses an address. -/
def choose (s : AddressSet) (r : Random) : Address × Random :=
  match _h : s.pick? r.word.1 with
  | some a => (a, r.word.2)
  | none => choose s r.word.2
termination_by r.pending.length
decreasing_by
  -- a refused word is not zero, so octets were left to draw
  have hne : r.pending ≠ [] := by
    intro hnil
    have hsome := s.pick?_zero_isSome
    rw [← Random.word_of_pending_nil hnil, _h] at hsome
    exact absurd hsome (by simp)
  have hlen : 0 < r.pending.length := List.length_pos_iff.2 hne
  simp only [Random.word, Random.pending_skip, List.length_drop]
  omega

/-- Chooses `count` times in a row. -/
def chooseMany (s : AddressSet) : Nat → Random → List Address × Random
  | 0, r => ([], r)
  | count + 1, r =>
    let (a, r) := s.choose r
    let (as, r) := chooseMany s count r
    (a :: as, r)

end AddressSet

end LogRelay
