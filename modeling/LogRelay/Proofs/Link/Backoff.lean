import LogRelay.Link.Settings
import Mathlib.Algebra.Ring.Nat

/-!
# Rests that double

The rest after each failure in a row is to be twice the one before, until it is as long as the greatest
rest.  It is a multiple of the first rest, and that multiple is a 32-bit number: after 32 failures it has
doubled as often as it can, and from then on it stays the greatest such number.  Whether this shows depends
on the two rests alone.

* `factor_eq_min`: the multiple in closed form;
* `nanos_backoff`: the rest as a number of nanoseconds, in which nothing is cut off but by the greatest rest;
* `Reachable`: the greatest rest is reached before the multiple stops;
* `doubles`: **up to 32 failures, and for ever if the greatest rest is reachable, rests double;** otherwise
  they stop short of it;
* `doubling_stops_short`: two rests with which that happens.
-/

namespace LogRelay

namespace Reconnect

/-- The greatest multiple of the first rest. -/
def greatestFactor : Nat := 2 ^ 32 - 1

/-- The greatest multiple of the first rest is not less than the greatest rest, unless both rests are
empty anyway. -/
def Reachable (initial longest : Duration) : Prop :=
  initial.nanos = 0 ∨ longest.nanos ≤ initial.nanos * greatestFactor

variable {initial longest : Duration} {n : Nat}

theorem greatestFactor_lt (hn : 32 < n) : greatestFactor < 2 ^ (n - 1) := by
  have hpow : 2 ^ 32 ≤ 2 ^ (n - 1) := Nat.pow_le_pow_right (by omega) (by omega)
  have hlt : greatestFactor < 2 ^ 32 := by decide
  omega

theorem le_greatestFactor (hn : n ≤ 32) : 2 ^ (n - 1) ≤ greatestFactor := by
  have hpow : 2 ^ (n - 1) ≤ 2 ^ 31 := Nat.pow_le_pow_right (by omega) (by omega)
  have hle : 2 ^ 31 ≤ greatestFactor := by decide
  omega

theorem factor_eq_min (n : Nat) : factor n = min (2 ^ (n - 1)) greatestFactor := by
  by_cases hn : n ≤ 32
  · have hle := le_greatestFactor hn
    rw [factor, if_pos hn, Nat.one_shiftLeft]
    omega
  · have hlt := greatestFactor_lt (n := n) (by omega)
    rw [factor, if_neg hn]
    show greatestFactor = _
    omega

/-- The greatest span of time cuts nothing off, since no greatest rest is longer. -/
theorem nanos_backoff (initial longest : Duration) (n : Nat) :
    ((backoff initial longest).delay n).nanos = min (initial.nanos * factor n) longest.nanos := by
  have hle := longest.nanos_le
  simp only [delay, Duration.nanos_shorter, Duration.nanos_scale]
  omega

/-- Where the greatest rest is not reachable, no multiple of the first rest comes up to it. -/
theorem lt_longest_of_not_reachable (h : ¬ Reachable initial longest) :
    0 < initial.nanos ∧ initial.nanos * greatestFactor < longest.nanos := by
  rw [Reachable, not_or, Nat.not_le] at h
  exact ⟨Nat.pos_of_ne_zero h.1, h.2⟩

/-- After 32 failures all rests are alike. -/
theorem nanos_backoff_of_lt (initial longest : Duration) (hn : 32 < n) :
    ((backoff initial longest).delay n).nanos = min (initial.nanos * greatestFactor) longest.nanos := by
  rw [nanos_backoff, factor_eq_min, Nat.min_eq_right (Nat.le_of_lt (greatestFactor_lt hn))]

theorem nanos_backoff_of_le (initial longest : Duration) (hn : n ≤ 32) :
    ((backoff initial longest).delay n).nanos = min (initial.nanos * 2 ^ (n - 1)) longest.nanos := by
  rw [nanos_backoff, factor_eq_min, Nat.min_eq_left (le_greatestFactor hn)]

/-- A reachable greatest rest hides that the multiple stops. -/
theorem nanos_backoff_of_reachable (h : Reachable initial longest) (n : Nat) :
    ((backoff initial longest).delay n).nanos = min (initial.nanos * 2 ^ (n - 1)) longest.nanos := by
  by_cases hn : n ≤ 32
  · exact nanos_backoff_of_le initial longest hn
  · have hn : 32 < n := by omega
    have hmore : initial.nanos * greatestFactor ≤ initial.nanos * 2 ^ (n - 1) :=
      Nat.mul_le_mul_left _ (Nat.le_of_lt (greatestFactor_lt hn))
    rw [nanos_backoff_of_lt initial longest hn]
    rcases h with hzero | hle
    · rw [hzero, Nat.zero_mul, Nat.zero_mul]
    · omega

/-- Where two rests in a row are as long as they would be without the bound on the multiple, the later is
twice the earlier, up to the greatest rest. -/
theorem nanos_backoff_succ (hn : 1 ≤ n)
    (h : ((backoff initial longest).delay n).nanos = min (initial.nanos * 2 ^ (n - 1)) longest.nanos)
    (hsucc : ((backoff initial longest).delay (n + 1)).nanos
      = min (initial.nanos * 2 ^ (n + 1 - 1)) longest.nanos) :
    ((backoff initial longest).delay (n + 1)).nanos
      = min (2 * ((backoff initial longest).delay n).nanos) longest.nanos := by
  have hpow : 2 ^ (n + 1 - 1) = 2 * 2 ^ (n - 1) := by
    rw [← Nat.pow_succ']
    congr 1
    omega
  rw [h, hsucc, hpow, Nat.mul_left_comm]
  omega

/-- After 32 failures or more, a rest falls short of twice the one before. -/
theorem nanos_backoff_succ_lt (h : ¬ Reachable initial longest) (hn : 32 ≤ n) :
    ((backoff initial longest).delay (n + 1)).nanos
      < min (2 * ((backoff initial longest).delay n).nanos) longest.nanos := by
  obtain ⟨hpos, hlt⟩ := lt_longest_of_not_reachable h
  have hsucc := nanos_backoff_of_lt initial longest (n := n + 1) (by omega)
  have hgreatest : greatestFactor = 4294967295 := rfl
  rw [hgreatest] at hlt hsucc
  by_cases hlast : n = 32
  · subst hlast
    have hthis := nanos_backoff_of_le initial longest (n := 32) (by omega)
    omega
  · have hthis := nanos_backoff_of_lt initial longest (n := n) (by omega)
    rw [hgreatest] at hthis
    omega

/-- **How rests double.**  Let the first rest be no longer than the greatest one.  Then the rest after the
first failure is the first rest.  The rest after `n` failures is the first one doubled `n - 1` times, but no
longer than the greatest one, exactly if `n` is at most 32 or the greatest rest is reachable; and exactly if
`n` is less than 32 or the greatest rest is reachable, the rest after one more failure is twice as long, but
no longer than the greatest one.  If it is not reachable, all rests after more than 32 failures are alike,
and shorter. -/
theorem doubles (h : initial.nanos ≤ longest.nanos) (hn : 1 ≤ n) :
    (backoff initial longest).delay 1 = initial ∧
    (((backoff initial longest).delay n).nanos = min (initial.nanos * 2 ^ (n - 1)) longest.nanos ↔
      n ≤ 32 ∨ Reachable initial longest) ∧
    (((backoff initial longest).delay (n + 1)).nanos
        = min (2 * ((backoff initial longest).delay n).nanos) longest.nanos ↔
      n < 32 ∨ Reachable initial longest) ∧
    (32 < n → ¬ Reachable initial longest →
      ((backoff initial longest).delay n).nanos = initial.nanos * greatestFactor ∧
        initial.nanos * greatestFactor < longest.nanos) := by
  have hstays (hfar : 32 < n) (hnot : ¬ Reachable initial longest) :
      ((backoff initial longest).delay n).nanos = initial.nanos * greatestFactor ∧
        initial.nanos * greatestFactor < longest.nanos := by
    have hlt := (lt_longest_of_not_reachable hnot).2
    exact ⟨(nanos_backoff_of_lt initial longest hfar).trans (Nat.min_eq_left (Nat.le_of_lt hlt)), hlt⟩
  refine ⟨?_, ⟨?_, ?_⟩, ⟨?_, ?_⟩, hstays⟩
  · have hfirst := nanos_backoff_of_le initial longest (n := 1) (by omega)
    exact Duration.ext (hfirst.trans (by omega))
  · intro hlaw
    refine Classical.byContradiction fun hno => ?_
    rw [not_or, Nat.not_le] at hno
    obtain ⟨hpos, hlt⟩ := lt_longest_of_not_reachable hno.2
    have hmore : initial.nanos * greatestFactor < initial.nanos * 2 ^ (n - 1) :=
      Nat.mul_lt_mul_of_pos_left (greatestFactor_lt hno.1) hpos
    rw [(hstays hno.1 hno.2).1] at hlaw
    omega
  · rintro (hfew | hreach)
    · exact nanos_backoff_of_le initial longest hfew
    · exact nanos_backoff_of_reachable hreach n
  · intro hlaw
    refine Classical.byContradiction fun hno => ?_
    rw [not_or, Nat.not_lt] at hno
    exact absurd hlaw (Nat.ne_of_lt (nanos_backoff_succ_lt hno.2 hno.1))
  · rintro (hfew | hreach)
    · exact nanos_backoff_succ hn (nanos_backoff_of_le initial longest (by omega))
        (nanos_backoff_of_le initial longest (by omega))
    · exact nanos_backoff_succ hn (nanos_backoff_of_reachable hreach n)
        (nanos_backoff_of_reachable hreach (n + 1))

/-- From a millisecond to 2³² milliseconds: the greatest rest is out of reach by a millisecond. -/
theorem doubles_outOfReach : (Duration.ofMillis 1).nanos ≤ (Duration.ofMillis (2 ^ 32)).nanos ∧ 1 ≤ 32 ∧
    ((backoff (.ofMillis 1) (.ofMillis (2 ^ 32))).delay 32).nanos
      = min ((Duration.ofMillis 1).nanos * 2 ^ (32 - 1)) (Duration.ofMillis (2 ^ 32)).nanos ∧
    ((backoff (.ofMillis 1) (.ofMillis (2 ^ 32))).delay 33).nanos
      ≠ min (2 * ((backoff (.ofMillis 1) (.ofMillis (2 ^ 32))).delay 32).nanos)
        (Duration.ofMillis (2 ^ 32)).nanos := by
  have hle : (Duration.ofMillis 1).nanos ≤ (Duration.ofMillis (2 ^ 32)).nanos := by decide
  have hnot : ¬ (32 < 32 ∨ Reachable (.ofMillis 1) (.ofMillis (2 ^ 32))) := by
    rw [Reachable]
    decide
  obtain ⟨-, hclosed, hsucc, -⟩ := doubles (n := 32) hle (by decide)
  exact ⟨hle, by decide, hclosed.2 (.inl (by decide)), fun hlaw => hnot (hsucc.1 hlaw)⟩

/-- **Doubling stops short of the greatest rest.**  With a first rest of a millisecond and a greatest one of
2³² milliseconds, the rest after 33 failures is a millisecond less than the first one doubled 32 times, which
would be the greatest one; and it stays so. -/
theorem doubling_stops_short :
    (Duration.ofMillis 1).nanos ≤ (Duration.ofMillis (2 ^ 32)).nanos ∧
    (backoff (.ofMillis 1) (.ofMillis (2 ^ 32))).delay 33 = .ofMillis (2 ^ 32 - 1) ∧
    ((backoff (.ofMillis 1) (.ofMillis (2 ^ 32))).delay 33).nanos
      < min ((Duration.ofMillis 1).nanos * 2 ^ (33 - 1)) (Duration.ofMillis (2 ^ 32)).nanos ∧
    (backoff (.ofMillis 1) (.ofMillis (2 ^ 32))).delay (2 ^ 32 - 1) = .ofMillis (2 ^ 32 - 1) := by
  decide

end Reconnect

end LogRelay
