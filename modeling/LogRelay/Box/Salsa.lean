import LogRelay.Bytes

/-!
# The stream cipher

The Salsa20 core stirs a grid of sixteen 32-bit words for twenty rounds.  From it come a key derivation,
which takes eight of the stirred words, and a stream of blocks under a counter.  The extended cipher
derives a key from the first sixteen octets of a long nonce and runs the stream under the last eight.

* `Salsa.derive key input`: a new key of 32 octets;
* `Salsa.stream key nonce count`: the first `count` octets of the extended stream;
* `length_stream`: it is as long as asked.
-/

namespace LogRelay.Salsa

/-- Four words. -/
structure Quad where
  a : UInt32
  b : UInt32
  c : UInt32
  d : UInt32

/-- Sixteen words in four rows. -/
structure Grid where
  r0 : Quad
  r1 : Quad
  r2 : Quad
  r3 : Quad

/-- The word turned left by `n` bits, for `n` between 1 and 31. -/
def rotl (w : UInt32) (n : UInt32) : UInt32 := (w <<< n) ||| (w >>> (32 - n))

/-- Stirs four words. -/
def quarter (q : Quad) : Quad :=
  let b := q.b ^^^ rotl (q.a + q.d) 7
  let c := q.c ^^^ rotl (b + q.a) 9
  let d := q.d ^^^ rotl (c + b) 13
  let a := q.a ^^^ rotl (d + c) 18
  ⟨a, b, c, d⟩

/-- Rows become columns. -/
def Grid.transpose (g : Grid) : Grid :=
  ⟨⟨g.r0.a, g.r1.a, g.r2.a, g.r3.a⟩, ⟨g.r0.b, g.r1.b, g.r2.b, g.r3.b⟩,
   ⟨g.r0.c, g.r1.c, g.r2.c, g.r3.c⟩, ⟨g.r0.d, g.r1.d, g.r2.d, g.r3.d⟩⟩

/-- Stirs each row, starting at its word on the diagonal. -/
def Grid.stirRows (g : Grid) : Grid :=
  let q1 := quarter ⟨g.r1.b, g.r1.c, g.r1.d, g.r1.a⟩
  let q2 := quarter ⟨g.r2.c, g.r2.d, g.r2.a, g.r2.b⟩
  let q3 := quarter ⟨g.r3.d, g.r3.a, g.r3.b, g.r3.c⟩
  ⟨quarter g.r0, ⟨q1.d, q1.a, q1.b, q1.c⟩, ⟨q2.c, q2.d, q2.a, q2.b⟩, ⟨q3.b, q3.c, q3.d, q3.a⟩⟩

/-- A round on the columns and a round on the rows. -/
def Grid.doubleRound (g : Grid) : Grid := g.transpose.stirRows.transpose.stirRows

/-- Twenty rounds. -/
def Grid.stir (g : Grid) : Grid := Nat.repeat Grid.doubleRound 10 g

/-- The word of four octets, least significant first. -/
def readWord (bs : Bytes) : UInt32 := UInt32.ofNat (Bytes.toNatLE (bs.take 4))

/-- The octets of a word, least significant first. -/
def writeWord (w : UInt32) : Bytes := Bytes.ofNatLE 4 w.toNat

/-- Four words of sixteen octets. -/
def readQuad (bs : Bytes) : Quad :=
  ⟨readWord bs, readWord (bs.drop 4), readWord (bs.drop 8), readWord (bs.drop 12)⟩

/-- The words of a row. -/
def Quad.words (q : Quad) : List UInt32 := [q.a, q.b, q.c, q.d]

/-- The words of a grid in order. -/
def Grid.words (g : Grid) : List UInt32 := g.r0.words ++ g.r1.words ++ g.r2.words ++ g.r3.words

/-- The four words that spell `expand 32-byte k`, which stand on the diagonal. -/
def sigma : Quad := ⟨0x61707865, 0x3320646E, 0x79622D32, 0x6B206574⟩

/-- The grid of a key of 32 octets and an input of 16. -/
def grid (key input : Bytes) : Grid :=
  let k0 := readQuad key
  let k1 := readQuad (key.drop 16)
  let n := readQuad input
  ⟨⟨sigma.a, k0.a, k0.b, k0.c⟩, ⟨k0.d, sigma.b, n.a, n.b⟩, ⟨n.c, n.d, sigma.c, k1.a⟩,
   ⟨k1.b, k1.c, k1.d, sigma.d⟩⟩

/-- A key of 32 octets made from a key and an input of 16 octets. -/
def derive (key input : Bytes) : Bytes :=
  let g := (grid key input).stir
  [g.r0.a, g.r1.b, g.r2.c, g.r3.d, g.r1.c, g.r1.d, g.r2.a, g.r2.b].flatMap writeWord

/-- The block of 64 octets under a nonce of eight octets and a counter. -/
def block (key nonce : Bytes) (counter : Nat) : Bytes :=
  let g := grid key (nonce ++ Bytes.ofNatLE 8 counter)
  (List.zipWith (· + ·) g.stir.words g.words).flatMap writeWord

theorem length_flatMap_writeWord (ws : List UInt32) : (ws.flatMap writeWord).length = 4 * ws.length := by
  induction ws with
  | nil => rfl
  | cons w ws ih =>
    simp only [List.flatMap_cons, List.length_append, ih, writeWord, Bytes.length_ofNatLE,
      List.length_cons]
    omega

@[simp] theorem length_block (key nonce : Bytes) (counter : Nat) : (block key nonce counter).length = 64 := by
  simp only [block, length_flatMap_writeWord, List.length_zipWith, Grid.words, Quad.words,
    List.length_append, List.length_cons, List.length_nil]
  decide

/-- `n` blocks from a counter on. -/
def blocks (key nonce : Bytes) : (counter n : Nat) → Bytes
  | _, 0 => []
  | counter, n + 1 => block key nonce counter ++ blocks key nonce (counter + 1) n

@[simp] theorem length_blocks (key nonce : Bytes) (counter n : Nat) :
    (blocks key nonce counter n).length = 64 * n := by
  induction n generalizing counter with
  | zero => rfl
  | succ n ih =>
    simp only [blocks, List.length_append, length_block, ih]
    omega

/-- The first `count` octets of the stream under a nonce of 24 octets. -/
def stream (key nonce : Bytes) (count : Nat) : Bytes :=
  (blocks (derive key (nonce.take 16)) (nonce.drop 16) 0 (count / 64 + 1)).take count

@[simp] theorem length_stream (key nonce : Bytes) (count : Nat) :
    (stream key nonce count).length = count := by
  simp only [stream, List.length_take, length_blocks]
  omega

end LogRelay.Salsa
