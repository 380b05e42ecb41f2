import LogRelay.Zlib.Alphabet
import LogRelay.Zlib.Checksum
import LogRelay.Zlib.Recipe

/-!
# Decompressing

A stream has a header of two octets, blocks of three kinds, and the checksum of what the blocks make.  A
block holds octets as they are, or steps in the fixed codes, or steps in codes that it describes itself.
Reading goes from left to right; the stream is corrupt where a rule is broken, and incomplete where it ends
before the checksum does.  What follows the checksum is not looked at.

* `block`: the steps of one block;
* `inflate`: the data of a stream.
-/

namespace LogRelay.Zlib

/-! ### Blocks -/

/-- The number that a symbol and the bits after it stand for. -/
def takeRange (ranges : Array Range) (symbol : Nat) (bs : Bits) : Except Fault (Nat × Bits) :=
  match ranges[symbol]? with
  | none => .error .corrupt
  | some r =>
    match bs.takeNat r.width with
    | .ok (n, rest) => .ok (r.base + n, rest)
    | .error f => .error f

/-- The copy whose length is in the range at `place`. -/
def takeCopy (distanceCode : Code) (place : Nat) (bs : Bits) : Except Fault (Step × Bits) := do
  let (length, bs) ← takeRange lengths place bs
  let (symbol, bs) ← distanceCode.decode bs
  let (distance, bs) ← takeRange distances symbol bs
  return (.copy length distance, bs)

theorem length_takeRange {ranges : Array Range} {symbol : Nat} {bs : Bits} {r : Nat × Bits}
    (h : takeRange ranges symbol bs = .ok r) : r.2.length ≤ bs.length := by
  unfold takeRange at h
  split at h
  · cases h
  · split at h
    next hr =>
      cases h
      have := Bits.length_takeNat hr
      simp only at this ⊢
      omega
    next => cases h

theorem length_takeCopy {distanceCode : Code} {place : Nat} {bs : Bits} {r : Step × Bits}
    (h : takeCopy distanceCode place bs = .ok r) : r.2.length ≤ bs.length := by
  simp only [takeCopy, bind, Except.bind, pure, Except.pure] at h
  split at h
  · cases h
  next l hl =>
    split at h
    · cases h
    next s hs =>
      split at h
      · cases h
      next d hd =>
        cases h
        have h₁ := length_takeRange hl
        have h₂ := Code.length_decode hs
        have h₃ := length_takeRange hd
        simp only
        omega

/-- The steps up to the end of a block, onto those in `made`, which are in reverse order. -/
def takeSteps (code distanceCode : Code) (made : List Step) (bs : Bits) :
    Except Fault (List Step × Bits) :=
  match _h : code.decode bs with
  | .error f => .error f
  | .ok (symbol, rest) =>
    match Meaning.ofSymbol symbol with
    | .octet b => takeSteps code distanceCode (.literal b :: made) rest
    | .finish => .ok (made, rest)
    | .length place =>
      match _hc : takeCopy distanceCode place rest with
      | .error f => .error f
      | .ok (step, rest) => takeSteps code distanceCode (step :: made) rest
termination_by bs.length
decreasing_by
  · exact Code.length_decode _h
  · have h₁ := Code.length_decode _h
    have h₂ := length_takeCopy _hc
    simp only at h₁ h₂
    omega

/-- The bits up to the next octet are passed over; `bs` ends with an octet. -/
def align (bs : Bits) : Bits := bs.drop (bs.length % 8)

/-- As many octets as they are, onto the steps in `made`. -/
def takeOctets : (count : Nat) → List Step → Bits → Except Fault (List Step × Bits)
  | 0, made, bs => .ok (made, bs)
  | count + 1, made, bs =>
    match bs.takeNat 8 with
    | .error f => .error f
    | .ok (b, rest) => takeOctets count (.literal (UInt8.ofNat b) :: made) rest

/-- A block of octets as they are: their number, its complement, and the octets. -/
def takeStored (made : List Step) (bs : Bits) : Except Fault (List Step × Bits) := do
  let (count, bs) ← (align bs).takeNat 16
  let (complement, bs) ← bs.takeNat 16
  if count + complement = 65535 then takeOctets count made bs else .error .corrupt

/-- A run of code lengths: what symbols 16, 17 and 18 stand for.  The first repeats the length before. -/
def takeRun (symbol : Nat) (given : List Nat) (bs : Bits) : Except Fault (List Nat × Bits) :=
  if symbol = 16 then
    match given with
    | [] => .error .corrupt
    | l :: _ => (bs.takeNat 2).map fun p => (List.replicate (3 + p.1) l, p.2)
  else if symbol = 17 then (bs.takeNat 3).map fun p => (List.replicate (3 + p.1) 0, p.2)
  else (bs.takeNat 7).map fun p => (List.replicate (11 + p.1) 0, p.2)

theorem length_takeRun {symbol : Nat} {given : List Nat} {bs : Bits} {r : List Nat × Bits}
    (h : takeRun symbol given bs = .ok r) : r.2.length ≤ bs.length := by
  have key : ∀ {w : Nat} {f : Nat × Bits → List Nat × Bits}, (∀ p, (f p).2 = p.2) →
      (bs.takeNat w).map f = .ok r → r.2.length ≤ bs.length := by
    intro w f hf h
    cases hp : bs.takeNat w with
    | error => rw [hp] at h; cases h
    | ok p =>
      rw [hp] at h
      cases h
      have := Bits.length_takeNat hp
      rw [hf]
      omega
  unfold takeRun at h
  split at h
  · split at h
    · cases h
    · exact key (fun _ => rfl) h
  · split at h
    · exact key (fun _ => rfl) h
    · exact key (fun _ => rfl) h

/-- Code lengths until there are `count`, onto those in `given`, which are in reverse order and `held`
in number. -/
def takeLengths (code : Code) (count held : Nat) (given : List Nat) (bs : Bits) :
    Except Fault (List Nat × Bits) :=
  if count ≤ held then (if count = held then .ok (given.reverse, bs) else .error .corrupt)
  else
    match _h : code.decode bs with
    | .error f => .error f
    | .ok (symbol, rest) =>
      if symbol < 16 then takeLengths code count (held + 1) (symbol :: given) rest
      else
        match _hr : takeRun symbol given rest with
        | .error f => .error f
        | .ok (run, rest) => takeLengths code count (held + run.length) (run ++ given) rest
termination_by bs.length
decreasing_by
  · exact Code.length_decode _h
  · have h₁ := Code.length_decode _h
    have h₂ := length_takeRun _hr
    simp only at h₁ h₂
    omega

/-- The length that each symbol has when lengths are given in `lengthOrder`. -/
def inOrder (given : List Nat) : List Nat :=
  (List.range lengthOrder.length).map fun s => ((lengthOrder.zip given).lookup s).getD 0

/-- The code with the given lengths. -/
def codeOf (sparse : Bool) (lengths : List Nat) : Except Fault Code :=
  match Code.ofLengths? sparse lengths with
  | some c => .ok c
  | none => .error .corrupt

/-- The codes that a block describes. -/
def takeCodes (bs : Bits) : Except Fault ((Code × Code) × Bits) := do
  let (n, bs) ← bs.takeNat 5
  let (d, bs) ← bs.takeNat 5
  let (c, bs) ← bs.takeNat 4
  let symbols := 257 + n
  let distanceSymbols := 1 + d
  if 286 < symbols ∨ 30 < distanceSymbols then .error .corrupt
  else do
    let (given, bs) ← bs.takeNats 3 (4 + c)
    let lengthCode ← codeOf false (inOrder given)
    let (ls, bs) ← takeLengths lengthCode (symbols + distanceSymbols) 0 [] bs
    let distanceCode ← codeOf true (ls.drop symbols)
    let code ← codeOf true (ls.take symbols)
    return ((code, distanceCode), bs)

/-- A block: whether it is the last one, and its steps onto those in `made`. -/
def takeBlock (made : List Step) (bs : Bits) : Except Fault (Bool × List Step × Bits) := do
  let (last, bs) ← bs.takeNat 1
  let (kind, bs) ← bs.takeNat 2
  let (made, bs) ←
    match kind with
    | 0 => takeStored made bs
    | 1 => takeSteps fixedCode fixedDistanceCode made bs
    | 2 => do
      let ((code, distanceCode), bs) ← takeCodes bs
      takeSteps code distanceCode made bs
    | _ => .error .corrupt
  return (last == 1, made, bs)

/-- Blocks up to the last one.  Each takes at least one bit of the `fuel`. -/
def takeBlocks : (fuel : Nat) → List Step → Bits → Except Fault (List Step × Bits)
  | 0, _, _ => .error .incomplete
  | fuel + 1, made, bs => do
    let (last, made, bs) ← takeBlock made bs
    if last then .ok (made, bs) else takeBlocks fuel made bs

/-- The recipe in a row of bits, and the bits after its last block. -/
def takeRecipe (bs : Bits) : Except Fault (List Step × Bits) :=
  (takeBlocks (bs.length + 1) [] bs).map fun p => (p.1.reverse, p.2)

/-! ### Streams -/

/-- Whether two octets are the header of a stream: it is divisible by 31, names the one method there is
with a window of at most 32768 octets, and asks for no dictionary. -/
def isHeader (method flags : UInt8) : Bool :=
  (method.toNat * 256 + flags.toNat) % 31 == 0 && method.toNat % 16 == 8 && method.toNat / 16 ≤ 7 &&
    flags.toNat / 32 % 2 == 0

/-- The data of a stream. -/
def inflate : Bytes → Except Fault Bytes
  | method :: flags :: rest =>
    if isHeader method flags then do
      let (steps, bs) ← takeRecipe (Bits.ofBytes rest)
      let (sums, _) ← (align bs).takeNats 8 4
      let data := expand steps
      if sums = (Checksum.ofBytes data).write.map UInt8.toNat then return data else .error .corrupt
    else .error .corrupt
  | _ => .error .incomplete

end LogRelay.Zlib
