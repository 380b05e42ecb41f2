import LogRelay.Json.Quoted

/-!
# JSON tokens

`tokens` splits a byte string into tokens, leaving out the space between them.  It stops behind the first
token that is not complete or no token at all, and that token says why: a reader that needs the value and a
reader that skips it may meet different faults.
-/

namespace LogRelay.Json

/-- Why a value could not be read to its end: for a reader of the value, and for one that skips it. -/
structure Cut where
  /-- What a reader of the value meets. -/
  read : Fault
  /-- What a reader that skips the value meets. -/
  skipped : Fault
deriving DecidableEq, Repr

/-- A cut that is the same for both readers. -/
def Fault.cut (f : Fault) : Cut := ⟨f, f⟩

/-- A token. -/
inductive Token where
  | listOpen
  | listClose
  | objectOpen
  | objectClose
  | comma
  | colon
  | null
  | flag (b : Bool)
  /-- A numeral; without a value if it is out of range. -/
  | number (value : Option Numeral)
  /-- A string; without a text if it has none. -/
  | string (text : Option String)
  /-- A string without its end. -/
  | brokenString (c : Cut)
  | broken (c : Cut)
deriving Repr

/-- The octets that may stand between tokens. -/
def isSpace (b : UInt8) : Bool := b == 32 || b == 10 || b == 9 || b == 13

/-- What follows `word`, if the byte string starts with it. -/
def expect : (word : Bytes) → Bytes → Except Fault Bytes
  | [], rest => .ok rest
  | _ :: _, [] => .error .ended
  | w :: word, b :: rest => if w = b then expect word rest else .error .malformed

/-- A token and what follows it; nothing follows a broken one. -/
structure Lexed where
  token : Token
  rest : Bytes

/-- A word with a fixed meaning. -/
def lexWord (t : Token) (word bs : Bytes) : Lexed :=
  match expect word bs with
  | .ok rest => ⟨t, rest⟩
  | .error f => ⟨.broken f.cut, []⟩

/-- A numeral. -/
def lexNumber (bs : Bytes) : Lexed :=
  match Lexeme.scan bs with
  | .ok (x, rest) => ⟨.number x.value?, rest⟩
  | .error f => ⟨.broken ⟨f, .malformed⟩, []⟩

/-- A string, from behind its opening quote. -/
def lexString (bs : Bytes) : Lexed :=
  let s := Quoted.scan bs
  match s.rest with
  | .ok rest => ⟨.string (Quoted.text? s.pieces), rest⟩
  | .error f => ⟨.brokenString ⟨Quoted.cutFault f s.pieces, f⟩, []⟩

/-- The token that starts with `b`. -/
def lex (b : UInt8) (rest : Bytes) : Lexed :=
  if b = 91 then ⟨.listOpen, rest⟩
  else if b = 93 then ⟨.listClose, rest⟩
  else if b = 123 then ⟨.objectOpen, rest⟩
  else if b = 125 then ⟨.objectClose, rest⟩
  else if b = 44 then ⟨.comma, rest⟩
  else if b = 58 then ⟨.colon, rest⟩
  else if b = 34 then lexString rest
  else if b = 110 then lexWord .null [117, 108, 108] rest
  else if b = 116 then lexWord (.flag true) [114, 117, 101] rest
  else if b = 102 then lexWord (.flag false) [97, 108, 115, 101] rest
  else if b = 45 ∨ (digit? b).isSome then lexNumber (b :: rest)
  else ⟨.broken (Fault.cut .malformed), []⟩

theorem length_expect {word bs rest : Bytes} (h : expect word bs = .ok rest) :
    rest.length ≤ bs.length := by
  fun_induction expect word bs with
  | case1 bs => cases h; exact Nat.le_refl _
  | case2 => cases h
  | case3 _ _ _ ih => exact Nat.le_succ_of_le (ih h)
  | case4 => cases h

theorem length_lexWord (t : Token) (word bs : Bytes) : (lexWord t word bs).rest.length ≤ bs.length := by
  unfold lexWord
  split
  next h => exact length_expect h
  · simp

theorem length_lexString (bs : Bytes) : (lexString bs).rest.length ≤ bs.length := by
  simp only [lexString]
  split
  next h => exact Nat.le_of_lt (Quoted.length_scan h)
  · simp

theorem takeDigits_cons {b : UInt8} (rest : Bytes) (h : (digit? b).isSome = true) :
    (takeDigits (b :: rest)).2 = (takeDigits rest).2 := by
  obtain ⟨d, hd⟩ := Option.isSome_iff_exists.1 h
  simp [takeDigits, hd]

theorem length_scanWhole_of_digit {b : UInt8} {rest : Bytes} {r : List Nat × Bytes}
    (h : (digit? b).isSome = true) (hr : Lexeme.scanWhole (b :: rest) = .ok r) :
    r.2.length ≤ rest.length := by
  have hcons := takeDigits_cons rest h
  have hle := length_takeDigits rest
  unfold Lexeme.scanWhole at hr
  split at hr
  · cases hr
  · cases hr
  next hds =>
    cases hr
    rw [hds] at hcons
    simp only at hcons ⊢
    rw [hcons]
    exact hle

theorem scanMinus_of_ne {b : UInt8} (rest : Bytes) (h : b ≠ 45) :
    Lexeme.scanMinus (b :: rest) = (false, b :: rest) := by
  unfold Lexeme.scanMinus
  split
  next heq => exact absurd (List.cons.inj heq).1 h
  · rfl

/-- A numeral takes at least its first octet: a minus sign, or the first of its digits. -/
theorem length_lexNumber {b : UInt8} (rest : Bytes) (h : b = 45 ∨ (digit? b).isSome = true) :
    (lexNumber (b :: rest)).rest.length ≤ rest.length := by
  unfold lexNumber
  split
  next x rest' hx =>
    simp only [Lexeme.scan, bind, Except.bind, pure, Except.pure] at hx
    split at hx
    · cases hx
    next w hw =>
      split at hx
      · cases hx
      next f hf =>
        split at hx
        · cases hx
        next e he =>
          cases hx
          have hfraction := Lexeme.length_scanFraction hf
          have hexponent := Lexeme.length_scanExponent he
          have hwhole : w.2.length ≤ rest.length := by
            by_cases hb : b = 45
            · subst hb
              exact Lexeme.length_scanWhole hw
            · rw [scanMinus_of_ne rest hb] at hw
              exact length_scanWhole_of_digit (h.resolve_left hb) hw
          simp only at hfraction hexponent ⊢
          omega
  · simp

theorem length_rest_ite {c : Prop} [Decidable c] {x y : Lexed} {n : Nat}
    (hx : c → x.rest.length ≤ n) (hy : y.rest.length ≤ n) : (if c then x else y).rest.length ≤ n := by
  by_cases h : c
  · rw [if_pos h]
    exact hx h
  · rw [if_neg h]
    exact hy

theorem length_lex (b : UInt8) (rest : Bytes) : (lex b rest).rest.length ≤ rest.length := by
  unfold lex
  iterate 6 refine length_rest_ite (fun _ => Nat.le_refl _) ?_
  refine length_rest_ite (fun _ => length_lexString _) ?_
  iterate 3 refine length_rest_ite (fun _ => length_lexWord _ _ _) ?_
  exact length_rest_ite (fun h => length_lexNumber _ h) (Nat.zero_le _)

/-- The tokens of a byte string. -/
def tokens : Bytes → List Token
  | [] => []
  | b :: rest =>
    if isSpace b then tokens rest else (lex b rest).token :: tokens (lex b rest).rest
termination_by bs => bs.length
decreasing_by
  · simp
  · have := length_lex b rest
    simp only [List.length_cons]
    omega

end LogRelay.Json
