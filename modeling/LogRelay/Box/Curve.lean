import LogRelay.Bytes

/-!
# The curve behind the key agreement

Points of the Montgomery curve over the integers modulo `2 ^ 255 - 19` are known by their first
coordinate alone.  `multiply` walks the bits of a scalar from the highest and keeps the multiples `k P` and
`(k + 1) P` as fractions.  A secret is clamped to a multiple of eight of fixed size and then reduced modulo
the order of the base point, so the multiple of a point outside the prime-order group is the one that the
reduced scalar gives.

* `Curve.publicOf`: the public key of a secret;
* `Curve.agree`: the shared point of a public key and a secret.
-/

namespace LogRelay.Curve

/-- The prime of the field. -/
def prime : Nat := Nat.pow 2 255 - 19

/-- The order of the base point. -/
def order : Nat := Nat.pow 2 252 + 27742317777372353535851937790883648493

/-- The first coordinate of the base point. -/
def base : Nat := 9

/-- Sum in the field. -/
def add (a b : Nat) : Nat := (a + b) % prime

/-- Difference in the field. -/
def sub (a b : Nat) : Nat := (a + (prime - b % prime)) % prime

/-- Product in the field. -/
def mul (a b : Nat) : Nat := a * b % prime

/-- Power in the field, for an exponent of at most `bits` bits. -/
def pow : (bits : Nat) → Nat → Nat → Nat
  | 0, _, _ => 1
  | bits + 1, a, e =>
    let half := pow bits (mul a a) (e / 2)
    if e % 2 = 1 then mul a half else half

/-- The inverse in the field; zero for zero. -/
def inv (a : Nat) : Nat := pow 255 a (prime - 2)

/-- A first coordinate as a fraction. -/
structure Fraction where
  num : Nat
  /-- The denominator, zero for the point at infinity. -/
  den : Nat

/-- The value of a fraction; zero for the point at infinity. -/
def Fraction.value (f : Fraction) : Nat := mul f.num (inv f.den)

/-- The double of `p` and the sum of `p` and `q`, whose difference has the coordinate `u`. -/
def step (u : Nat) (p q : Fraction) : Fraction × Fraction :=
  let t0 := add p.num p.den
  let t1 := sub p.num p.den
  let t2 := add q.num q.den
  let t3 := sub q.num q.den
  let t4 := mul t0 t0
  let t5 := mul t1 t1
  let t6 := sub t4 t5
  let t7 := mul t0 t3
  let t8 := mul t1 t2
  let t9 := add t7 t8
  let t10 := sub t7 t8
  (⟨mul t4 t5, mul t6 (add (mul 121666 t6) t5)⟩, ⟨mul t9 t9, mul u (mul t10 t10)⟩)

/-- Walks the lowest `bits` bits of `k`, the highest of them first. -/
def ladder (u k : Nat) : (bits : Nat) → Fraction → Fraction → Fraction
  | 0, p, _ => p
  | bits + 1, p, q =>
    if k.testBit bits then
      let (q', p') := step u q p
      ladder u k bits p' q'
    else
      let (p', q') := step u p q
      ladder u k bits p' q'

/-- The coordinate of `k` times the point with coordinate `u`. -/
def multiply (k u : Nat) : Nat := (ladder u k 255 ⟨1, 0⟩ ⟨u, 1⟩).value

/-- The coordinate that a public key of 32 octets stands for; the highest bit does not count. -/
def coordinate (key : Bytes) : Nat := Bytes.toNatLE key % Nat.pow 2 255 % prime

/-- The scalar that a secret of 32 octets stands for. -/
def scalar (secret : Bytes) : Nat :=
  let n := Bytes.toNatLE secret % Nat.pow 2 255
  (n % Nat.pow 2 254 / 8 * 8 + Nat.pow 2 254) % order

/-- The public key of a secret. -/
def publicOf (secret : Bytes) : Bytes := Bytes.ofNatLE 32 (multiply (scalar secret) base)

/-- The point that the owner of `secret` shares with the owner of `key`. -/
def agree (key secret : Bytes) : Bytes := Bytes.ofNatLE 32 (multiply (scalar secret) (coordinate key))

end LogRelay.Curve
