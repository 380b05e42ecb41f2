/-!
# The shortest text of a real number

A finite `Float` other than zero is `m * 2 ^ q` for whole `m` and `q`.  All reals that are closer to it
than to any other float form an interval, and any decimal inside it reads back as the same float.
`Shortest.decimal` takes the coarsest decimal grid that has a point in the interval, and on it the point
nearest to the number, so no decimal with fewer digits reads back.

* `Shortest.decimal m q even`: the digits and the power of ten;
* `realText`: plain notation for exponents of ten from -5 to 15, scientific notation otherwise.
-/

namespace LogRelay.Text

namespace Shortest

/-- Four times the bounds of the interval around a float and the float itself, over a common
denominator. -/
structure Span where
  low : Nat
  mid : Nat
  high : Nat
  unit : Nat
  /-- Whether the ends belong to the interval. -/
  inclusive : Bool
deriving Repr

/-- The interval around `m * 2 ^ q`.  Below a power of two the floats are twice as dense. -/
def span (m : Nat) (q : Int) (dense : Bool) : Span :=
  let low := if dense then 4 * m - 1 else 4 * m - 2
  let up := Nat.pow 2 (q - 2).toNat
  ⟨low * up, 4 * m * up, (4 * m + 2) * up, Nat.pow 2 (2 - q).toNat, m % 2 == 0⟩

/-- The interval measured in units of `10 ^ s`. -/
def Span.scale (p : Span) (s : Int) : Span :=
  let down := Nat.pow 10 (-s).toNat
  ⟨p.low * down, p.mid * down, p.high * down, p.unit * Nat.pow 10 s.toNat, p.inclusive⟩

/-- Whether the number `n` lies in the interval. -/
def Span.contains (p : Span) (n : Nat) : Bool :=
  if p.inclusive then p.low ≤ n * p.unit && n * p.unit ≤ p.high
  else p.low < n * p.unit && n * p.unit < p.high

/-- The whole number in the interval that is nearest to its middle, the even one of two equally near. -/
def Span.whole? (p : Span) : Option Nat :=
  let below := p.mid / p.unit
  let above := below + 1
  let toBelow := p.mid - below * p.unit
  let toAbove := above * p.unit - p.mid
  match p.contains below, p.contains above with
  | true, true =>
    if toBelow < toAbove ∨ (toBelow = toAbove ∧ below % 2 = 0) then some below else some above
  | true, false => some below
  | false, true => some above
  | false, false => none

/-- The first grid with a point in the interval, from `10 ^ s` downwards. -/
def search (p : Span) : Nat → Int → Nat × Int
  | 0, s => (0, s)
  | fuel + 1, s =>
    match (p.scale s).whole? with
    | some n => (n, s)
    | none => search p fuel (s - 1)

/-- The digits `n` and the power `s` of the shortest decimal `n * 10 ^ s` for `m * 2 ^ q`.  No float is
beyond `10 ^ 309`, and each has a decimal of at most 17 digits. -/
def decimal (m : Nat) (q : Int) (dense : Bool) : Nat × Int := search (span m q dense) 660 309

end Shortest

/-- The digits of a whole number. -/
def wholeDigits (n : Nat) : List Char := Nat.toDigits 10 n

/-- The decimal `n * 10 ^ s` in plain notation for moderate sizes and in scientific notation otherwise. -/
def decimalText (n : Nat) (s : Int) : List Char :=
  let ds := wholeDigits n
  let exponent := s + ds.length - 1
  if -5 ≤ exponent ∧ exponent ≤ 15 then
    if 0 ≤ s then ds ++ List.replicate s.toNat '0' ++ ['.', '0']
    else if 0 ≤ exponent then
      let whole := (exponent + 1).toNat
      ds.take whole ++ '.' :: ds.drop whole
    else '0' :: '.' :: List.replicate (-exponent - 1).toNat '0' ++ ds
  else
    let mantissa := match ds with
      | [d] => [d]
      | d :: rest => d :: '.' :: rest
      | [] => []
    mantissa ++ 'e' :: (if exponent < 0 then '-' else '+') :: wholeDigits exponent.natAbs

/-- The shortest text that reads back as a finite float. -/
def realText (x : Float) : String :=
  let bits := x.toBits.toNat
  let sign := if 0x8000000000000000 ≤ bits then ['-'] else []
  let exponent : Nat := bits / 0x10000000000000 % 0x800
  let fraction : Nat := bits % 0x10000000000000
  let body :=
    if exponent = 0 ∧ fraction = 0 then ['0', '.', '0']
    else
      let (n, s) :=
        if exponent = 0 then Shortest.decimal fraction (-1074) false
        else Shortest.decimal (0x10000000000000 + fraction) ((exponent : Int) - 1075) (fraction == 0 && exponent != 1)
      decimalText n s
  String.ofList (sign ++ body)

end LogRelay.Text
