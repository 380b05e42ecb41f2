import LogRelay.Zlib.Bits

/-!
# Prefix codes

A `Code` is a binary tree whose leaves are symbols; the word of a symbol is the path to it.  A stream gives
a code by the lengths of its words alone: shorter words come first, words of one length in the order of
their symbols, and each takes the leftmost place that is free.

* `Code.ofLengths?`: the code with the given lengths;
* `Code.decode`: reads the symbol at the front of a row of bits;
* `Code.words`: the word of every symbol.
-/

namespace LogRelay.Zlib

/-- A binary tree of symbols. -/
inductive Code where
  | vacant
  | leaf (symbol : Nat)
  /-- The words that go on with a zero and those that go on with a one. -/
  | node (zero one : Code)
deriving DecidableEq, Repr

namespace Code

/-- Puts a symbol at the leftmost free place at a depth. -/
def insert? (symbol : Nat) : (depth : Nat) → Code → Option Code
  | 0, vacant => some (leaf symbol)
  | depth + 1, vacant => (insert? symbol depth vacant).map fun zero => node zero vacant
  | depth + 1, node zero one =>
    match insert? symbol depth zero with
    | some zero => some (node zero one)
    | none => (insert? symbol depth one).map fun one => node zero one
  | _, _ => none

/-- Whether every place has a symbol. -/
def isFull : Code → Bool
  | vacant => false
  | leaf _ => true
  | node zero one => zero.isFull && one.isFull

/-- The greatest length of a word. -/
def maxLength : Nat := 15

/-- The symbols with words of a length, in order. -/
def symbolsOfLength (length : Nat) : (first : Nat) → List Nat → List Nat
  | _, [] => []
  | first, l :: ls =>
    if l = length then first :: symbolsOfLength length (first + 1) ls
    else symbolsOfLength length (first + 1) ls

/-- The lengths with their symbols in the order in which places are taken. -/
def placements (lengths : List Nat) : List (Nat × Nat) :=
  ((List.range maxLength).map (· + 1)).flatMap fun l =>
    (symbolsOfLength l 0 lengths).map fun s => (s, l)

/-- Places symbols one after the other. -/
def place? : Code → List (Nat × Nat) → Option Code
  | c, [] => some c
  | c, (symbol, depth) :: rest =>
    match insert? symbol depth c with
    | some c => place? c rest
    | none => none

/-- Whether a code has no word at all, or a single one, which is one bit long. -/
def isBare : Code → Bool
  | vacant | node (leaf _) vacant => true
  | _ => false

/-- The code in which symbol `i` has a word of the `i`th length; a length of zero stands for no word.
There must be room for all words, and no place may be free, except that a bare code is allowed where
`sparse` says so. -/
def ofLengths? (sparse : Bool) (lengths : List Nat) : Option Code :=
  match place? vacant (placements lengths) with
  | some c => if c.isFull || sparse && c.isBare then some c else none
  | none => none

/-- Follows the bits down a code.  A place that is free ends the stream as corrupt. -/
def walk : Code → Bits → Except Fault (Nat × Bits)
  | leaf symbol, bs => .ok (symbol, bs)
  | vacant, _ => .error .corrupt
  | node _ _, [] => .error .incomplete
  | node zero one, b :: bs => walk (if b then one else zero) bs

/-- The symbol at the front of a row of bits, and the bits after its word.  Every word has at least one
bit, so a lone leaf has none, and nothing is looked up where no bit is left. -/
def decode : Code → Bits → Except Fault (Nat × Bits)
  | leaf _, _ => .error .corrupt
  | _, [] => .error .incomplete
  | c, bs => walk c bs

/-- The symbols with their words. -/
def words : Code → List (Nat × Bits)
  | vacant => []
  | leaf symbol => [(symbol, [])]
  | node zero one =>
    zero.words.map (fun p => (p.1, false :: p.2)) ++ one.words.map (fun p => (p.1, true :: p.2))

theorem length_walk {c : Code} {bs : Bits} {r : Nat × Bits} (h : walk c bs = .ok r) :
    r.2.length ≤ bs.length := by
  fun_induction walk c bs with
  | case1 => cases h; exact Nat.le_refl _
  | case2 => cases h
  | case3 => cases h
  | case4 _ _ _ _ ih => exact Nat.le_succ_of_le (ih h)

/-- Reading a word gives its symbol, whatever follows. -/
theorem walk_word {c : Code} {p : Nat × Bits} (h : p ∈ c.words) (rest : Bits) :
    walk c (p.2 ++ rest) = .ok (p.1, rest) := by
  induction c generalizing p with
  | vacant => simp [words] at h
  | leaf symbol =>
    simp only [words, List.mem_singleton] at h
    subst h
    simp [walk]
  | node zero one ihz iho =>
    simp only [words, List.mem_append, List.mem_map] at h
    rcases h with ⟨q, hq, rfl⟩ | ⟨q, hq, rfl⟩
    · simpa [walk] using ihz hq
    · simpa [walk] using iho hq

theorem decode_word {c : Code} {p : Nat × Bits} (h : p ∈ c.words) (hp : p.2 ≠ []) (rest : Bits) :
    c.decode (p.2 ++ rest) = .ok (p.1, rest) := by
  cases c with
  | leaf symbol =>
    simp only [words, List.mem_singleton] at h
    exact absurd (by rw [h]) hp
  | vacant => simp [words] at h
  | node zero one =>
    obtain ⟨b, bs, hb⟩ := List.exists_cons_of_ne_nil hp
    have := walk_word h rest
    simpa [decode, hb] using this

theorem length_decode {c : Code} {bs : Bits} {r : Nat × Bits} (h : c.decode bs = .ok r) :
    r.2.length < bs.length := by
  cases c with
  | leaf => cases h
  | vacant => cases bs <;> cases h
  | node zero one =>
    cases bs with
    | nil => cases h
    | cons b bs =>
      simp only [decode, walk] at h
      exact Nat.lt_succ_of_le (length_walk h)

end Code

end LogRelay.Zlib
