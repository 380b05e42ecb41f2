import LogRelay.Address.Choice
import LogRelay.Duration

/-!
# Settings of a link

A link is told among which collectors to choose, how long each operation may take, and how long to rest
between attempts to connect.

* `Reconnect.tally`: the count of failures in a row;
* `Reconnect.delay`: the rest after so many failures in a row;
* `LinkSettings.limits`: the limits with their defaults filled in.
-/

namespace LogRelay

/-- How long to rest after a failed attempt to connect. -/
inductive Reconnect where
  | fixed (delay : Duration)
  /-- Twice as long after each failure, up to a greatest rest. -/
  | backoff (initial longest : Duration)
deriving DecidableEq

namespace Reconnect

/-- The rest between attempts where none is set. -/
def defaultDelay : Duration := .ofMillis 500

instance : Inhabited Reconnect := ⟨.fixed defaultDelay⟩

/-- So many failures in a row, as they are counted: a count has 32 bits and stays at its greatest value. -/
def tally (failures : Nat) : Nat := min failures 0xFFFFFFFF

/-- The multiple of the first rest after so many failures in a row: it doubles as long as it fits 32 bits. -/
def factor (failures : Nat) : Nat := if failures ≤ 32 then 1 <<< (failures - 1) else 0xFFFFFFFF

/-- The rest after so many failures in a row. -/
def delay (r : Reconnect) (failures : Nat) : Duration :=
  match r with
  | fixed d => d
  | backoff initial longest => (initial.scale (factor failures)).shorter longest

theorem tally_tally_add_one (n : Nat) : tally (tally n + 1) = tally (n + 1) := by
  unfold tally
  omega

/-- All rests are alike long before the count stops. -/
theorem delay_tally (r : Reconnect) (n : Nat) : r.delay (tally n) = r.delay n := by
  have hfactor : factor (tally n) = factor n := by
    by_cases hn : n ≤ 32
    · rw [tally, Nat.min_eq_left (by omega)]
    · have htally : ¬ tally n ≤ 32 := by
        unfold tally
        omega
      rw [factor, factor, if_neg hn, if_neg htally]
  cases r with
  | fixed d => rfl
  | backoff initial longest => simp only [delay, hfactor]

end Reconnect

/-- The role of a socket.  There is one: every message expects one reply. -/
inductive SocketKind where
  | request
deriving DecidableEq, Repr

/-- What a link is told. -/
structure LinkSettings where
  servers : AddressSet
  kind : Option SocketKind := some .request
  sendLimit : Option Duration := none
  receiveLimit : Option Duration := none
  connectLimit : Option Duration := none
  reconnect : Reconnect := default
deriving DecidableEq

/-- How long the operations of a link may take. -/
structure Limits where
  send : Duration
  receive : Duration
  connect : Duration
deriving DecidableEq

namespace LinkSettings

/-- The limit where none is set. -/
def defaultLimit : Duration := .ofMillis 1000

/-- A limit that is set and not zero, or else the given one. -/
def limitOr (given : Option Duration) (other : Duration) : Duration :=
  match given with
  | some d => if d.isZero then other else d
  | none => other

/-- The limits with their defaults: an attempt to connect may take as long as sending a frame. -/
def limits (s : LinkSettings) : Limits :=
  let send := limitOr s.sendLimit defaultLimit
  ⟨send, limitOr s.receiveLimit defaultLimit, limitOr s.connectLimit send⟩

end LinkSettings

end LogRelay
