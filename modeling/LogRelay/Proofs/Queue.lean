import LogRelay.Relay.Polling

/-!
# What comes of waiting at a queue

A stage that waits at a queue is answered in one of three ways.  Which ones are possible depends on
the mark that all was called off and on what the queue holds.

* `Queue.Yields`, `yields_of_take?`: what comes of waiting for an item;
* `Queue.Admits`, `admits_of_hand?`: what comes of handing something on;
* `empty_of_take?`, `full_of_hand?`: the queues at which one has to wait.
-/

namespace LogRelay.Queue

variable {α : Type}

/-- The ways in which waiting for an item ends, with the queue after that; `closed` when the queue
is empty and its last sender is gone. -/
inductive Yields (called : Bool) (q : Queue α) : Taking α → Queue α → Prop where
  | cancelled (hc : called = true) : Yields called q .cancelled q
  | item {a : α} {rest : List α} (hc : called = false) (hi : q.items = a :: rest) :
      Yields called q (.item a) { q with items := rest }
  | closed (hc : called = false) (hi : q.items = []) (hs : q.senders = 0) : Yields called q .closed q

theorem yields_of_take? {called : Bool} {q q' : Queue α} {t : Taking α}
    (h : q.take? called = some (t, q')) : q.Yields called t q' := by
  rw [take?] at h
  cases called with
  | true =>
    obtain ⟨rfl, rfl⟩ := Prod.mk.inj (Option.some.inj h)
    exact .cancelled rfl
  | false =>
    rw [if_neg (by simp), receive] at h
    cases hi : q.items with
    | cons a rest =>
      rw [hi] at h
      obtain ⟨rfl, rfl⟩ := Prod.mk.inj (Option.some.inj h)
      exact .item rfl hi
    | nil =>
      rw [hi] at h
      by_cases hs : q.senders = 0
      · rw [if_pos hs] at h
        obtain ⟨rfl, rfl⟩ := Prod.mk.inj (Option.some.inj h)
        exact .closed rfl hi hs
      · rw [if_neg hs] at h
        exact absurd h (by simp)

theorem exists_of_receive {q q' : Queue α} {a : α} (h : q.receive = .item a q') :
    ∃ rest, q.items = a :: rest ∧ q' = { q with items := rest } := by
  rw [receive] at h
  cases hi : q.items with
  | cons a' rest =>
    simp only [hi, Receiving.item.injEq] at h
    obtain ⟨rfl, rfl⟩ := h
    exact ⟨rest, rfl, rfl⟩
  | nil =>
    simp only [hi] at h
    split at h <;> exact absurd h (by simp)

/-- Whoever has to wait for an item finds the queue empty and a sender there. -/
theorem empty_of_take? {called : Bool} {q : Queue α} (h : q.take? called = none) :
    called = false ∧ q.items = [] ∧ q.senders ≠ 0 := by
  rw [take?] at h
  cases called with
  | true => exact absurd h (by simp)
  | false =>
    refine ⟨rfl, ?_⟩
    rw [if_neg (by simp), receive] at h
    cases hi : q.items with
    | cons a rest => simp [hi] at h
    | nil =>
      by_cases hs : q.senders = 0
      · simp [hi, hs] at h
      · exact ⟨rfl, hs⟩

/-- The ways in which handing something on ends, with the queue after that; `closed` when the
receiver is gone. -/
inductive Admits (called : Bool) (q : Queue α) (a : α) : Handing → Queue α → Prop where
  | cancelled (hc : called = true) : Admits called q a .cancelled q
  | accepted (hc : called = false) (hr : q.receiving = true) (hroom : q.items.length < q.capacity) :
      Admits called q a .accepted { q with items := q.items ++ [a] }
  | closed (hc : called = false) (hr : q.receiving = false) : Admits called q a .closed q

theorem send_eq_accepted {q q' : Queue α} {a : α} (h : q.send a = .accepted q') :
    q.receiving = true ∧ q.items.length < q.capacity ∧ q' = { q with items := q.items ++ [a] } := by
  rw [send, isClosed] at h
  cases hr : q.receiving with
  | false => simp [hr] at h
  | true =>
    by_cases hroom : q.items.length < q.capacity
    · simp only [hr, Bool.not_true, Bool.false_eq_true, if_false, if_pos hroom,
        Sending.accepted.injEq] at h
      exact ⟨rfl, hroom, h.symm⟩
    · simp [hr, hroom] at h

theorem receiving_of_send_eq_closed {q : Queue α} {a : α} (h : q.send a = .closed) :
    q.receiving = false := by
  rw [send, isClosed] at h
  cases hr : q.receiving with
  | false => rfl
  | true =>
    rw [hr] at h
    simp only [Bool.not_true, Bool.false_eq_true, if_false] at h
    split at h <;> exact absurd h (by simp)

theorem full_of_send_eq_full {q : Queue α} {a : α} (h : q.send a = .full) :
    q.receiving = true ∧ q.capacity ≤ q.items.length := by
  rw [send, isClosed] at h
  cases hr : q.receiving with
  | false => simp [hr] at h
  | true =>
    by_cases hroom : q.items.length < q.capacity
    · simp [hr, hroom] at h
    · exact ⟨rfl, Nat.le_of_not_lt hroom⟩

theorem admits_of_hand? {called : Bool} {q q' : Queue α} {a : α} {t : Handing}
    (h : q.hand? called a = some (t, q')) : q.Admits called a t q' := by
  rw [hand?] at h
  cases called with
  | true =>
    obtain ⟨rfl, rfl⟩ := Prod.mk.inj (Option.some.inj h)
    exact .cancelled rfl
  | false =>
    rw [if_neg (by simp)] at h
    cases hs : q.send a with
    | accepted q₁ =>
      rw [hs] at h
      obtain ⟨rfl, rfl⟩ := Prod.mk.inj (Option.some.inj h)
      obtain ⟨hr, hroom, rfl⟩ := send_eq_accepted hs
      exact .accepted rfl hr hroom
    | full =>
      rw [hs] at h
      exact absurd h (by simp)
    | closed =>
      rw [hs] at h
      obtain ⟨rfl, rfl⟩ := Prod.mk.inj (Option.some.inj h)
      exact .closed rfl (receiving_of_send_eq_closed hs)

/-- Whoever has to wait for room finds the queue full and its receiver there. -/
theorem full_of_hand? {called : Bool} {q : Queue α} {a : α} (h : q.hand? called a = none) :
    called = false ∧ q.receiving = true ∧ q.capacity ≤ q.items.length := by
  rw [hand?] at h
  cases called with
  | true => exact absurd h (by simp)
  | false =>
    refine ⟨rfl, ?_⟩
    rw [if_neg (by simp)] at h
    cases hs : q.send a with
    | accepted _ | closed =>
      rw [hs] at h
      exact absurd h (by simp)
    | full => exact full_of_send_eq_full hs

end LogRelay.Queue
