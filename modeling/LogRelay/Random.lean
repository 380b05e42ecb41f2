import LogRelay.Bytes

/-!
# The random source

A `Random` is a stream of octets together with the count of those already drawn from it.  The stream is
given by its beginning; after that come zeros.  Whoever needs randomness draws from the front, so the
draws of a run are consecutive, disjoint pieces of one stream.

* `Random.draw n`: the next `n` octets;
* `Random.word`: the next eight octets as a little-endian number.
-/

namespace LogRelay

/-- A stream of octets that is drawn from the front. -/
structure Random where
  /-- The octets to come, before the zeros. -/
  pending : Bytes := []
  /-- The number of octets drawn so far. -/
  drawn : Nat := 0
deriving DecidableEq

namespace Random

/-- The source after `n` octets are drawn. -/
def skip (n : Nat) (r : Random) : Random := ⟨r.pending.drop n, r.drawn + n⟩

/-- The next `n` octets and the source after them. -/
def draw (n : Nat) (r : Random) : Bytes × Random := (Bytes.takePadded n r.pending, r.skip n)

/-- The next 64-bit word and the source after it. -/
def word (r : Random) : UInt64 × Random :=
  (UInt64.ofNat (Bytes.toNatLE (Bytes.takePadded 8 r.pending)), r.skip 8)

@[simp] theorem drawn_skip (n : Nat) (r : Random) : (r.skip n).drawn = r.drawn + n := rfl

@[simp] theorem pending_skip (n : Nat) (r : Random) : (r.skip n).pending = r.pending.drop n := rfl

theorem skip_skip (m n : Nat) (r : Random) : (r.skip m).skip n = r.skip (m + n) := by
  simp only [skip, List.drop_drop, Nat.add_assoc]

/-- Once the given octets are used up, every word is zero. -/
theorem word_of_pending_nil {r : Random} (h : r.pending = []) : r.word.1 = 0 := by
  simp only [word, h]
  decide

end Random

end LogRelay
