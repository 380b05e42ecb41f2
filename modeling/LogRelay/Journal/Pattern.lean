import LogRelay.Text.Alphanumeric
import LogRelay.Text.Blank
import LogRelay.Text.Hexadecimal

/-!
# Patterns

The value of a field may be compared with a pattern, which is a regular expression.  Nothing is ever compared
here, because records outside spans have no such fields; but a filter with a text that is no pattern is no
filter, so `isPattern` tells which texts are.

A text is read from the left.  Groups stand in parentheses and sets of characters in brackets, and either may
hold others of its kind.  `(?x)` has blanks and comments passed over, `(?i)` has upper and lower case taken for the
same, and `(?-u)` gives up the characters beyond ASCII; each holds up to the end of its group.

Some things are not allowed though they are well formed: what looks at the text around a match; the edges of words
beyond ASCII; whatever could match one of the characters beyond ASCII in part once they are given up; and a
pattern that is nested too deep.  There are tables of digits, blanks and the characters of words, but none of other
classes of characters and none of upper and lower case.  So no class can be given by its name after `\p`; and where
case does not count, and the characters beyond ASCII are not given up, nothing is allowed that depends on case, or
that a table would have to be asked for.

A pattern never holds a closing brace, because that ends the field.  So no form with braces can be finished.
-/

namespace LogRelay.Journal

namespace Pattern

/-- How a pattern is read. -/
structure Mode where
  /-- Whether blanks and comments are passed over. -/
  spaced : Bool := false
  /-- Whether there are characters beyond ASCII. -/
  wide : Bool := true
  /-- Whether upper and lower case are the same. -/
  caseless : Bool := false
deriving DecidableEq, Repr

/-- Whether upper and lower case are the same beyond ASCII too, which takes a table that there is not. -/
def Mode.folds (m : Mode) : Bool := m.caseless && m.wide

/-- What an escape or a single character stands for. -/
inductive Atom where
  | literal (c : Char)
  | kind
  /-- A place between characters. -/
  | place
deriving DecidableEq, Repr

/-! ### Blanks -/

/-- What is left after blanks and comments, the first of which may have begun. -/
def afterBlanks : (inComment : Bool) → List Char → List Char
  | _, [] => []
  | true, c :: cs => afterBlanks (c != '\n') cs
  | false, c :: cs =>
    if Text.isBlank c then afterBlanks false cs
    else if c = '#' then afterBlanks true cs
    else c :: cs

/-- What is left after whatever is passed over. -/
def Mode.skip (m : Mode) (cs : List Char) : List Char := if m.spaced then afterBlanks false cs else cs

/-- The character that counts as the next one for a minus sign.  Of a comment only its mark is passed over. -/
def Mode.ahead (m : Mode) (cs : List Char) : Option Char :=
  if m.spaced then
    let next := match cs.dropWhile Text.isBlank with
      | '#' :: rest => (rest.dropWhile Text.isBlank).head?
      | rest => rest.head?
    next.or cs.head?
  else cs.head?

/-! ### Escapes -/

/-- Reads hexadecimal digits onto the value `acc`. -/
def takeHex (m : Mode) : (count acc : Nat) → List Char → Option (Nat × List Char)
  | 0, acc, cs => some (acc, m.skip cs)
  | count + 1, acc, cs =>
    match m.skip cs with
    | c :: rest => (Text.hexDigit? c).bind fun d => takeHex m count (acc * 16 + d) rest
    | [] => none

/-- The character with a number of `count` hexadecimal digits. -/
def takeNumbered (m : Mode) (count : Nat) (cs : List Char) : Option (Char × List Char) := do
  let (n, rest) ← takeHex m count 0 cs
  if n.isValidChar then some (Char.ofNat n, rest) else none

/-- Whether a character stands for itself after a backslash: one that is neither a letter nor a digit, nor
marks the edge of a word. -/
def isPlainEscape (c : Char) : Bool := c.toNat < 0x80 && !c.isAlphanum && c != '<' && c != '>'

/-- What an escape stands for, given what follows the backslash. -/
def takeEscape (m : Mode) : List Char → Option (Atom × List Char)
  | [] => none
  | c :: cs =>
    let octet := fun (p : Char × List Char) => m.wide || p.1.toNat < 0x80
    match c with
    | 'x' => ((takeNumbered m 2 cs).filter octet).map fun p => (.literal p.1, p.2)
    | 'u' => (takeNumbered m 4 cs).map fun p => (.literal p.1, p.2)
    | 'U' => (takeNumbered m 8 cs).map fun p => (.literal p.1, p.2)
    | 'd' | 's' | 'w' => some (.kind, cs)
    | 'D' | 'S' | 'W' => if m.wide then some (.kind, cs) else none
    | 'a' => some (.literal '\x07', cs)
    | 't' => some (.literal '\t', cs)
    | 'n' => some (.literal '\n', cs)
    | 'v' => some (.literal '\x0b', cs)
    | 'f' => some (.literal '\x0c', cs)
    | 'r' => some (.literal '\r', cs)
    | 'A' | 'z' => some (.place, cs)
    | 'b' | 'B' | '<' | '>' => if m.wide then none else some (.place, cs)
    | _ => if isPlainEscape c then some (.literal c, cs) else none

/-! ### Nesting -/

/-- How deep the parts of a pattern are nested that stand side by side.  One part by itself is as deep as it
is, and several are one deeper than the deepest of them. -/
structure Row where
  count : Nat := 0
  deepest : Nat := 0
deriving DecidableEq, Repr

/-- The depth of the parts together. -/
def Row.depth (w : Row) : Nat := if w.count ≤ 1 then w.deepest else w.deepest + 1

/-- How deep that is nested which a group or a set holds so far. -/
structure Nest where
  /-- What stands after the last mark that divides alternatives or operands. -/
  row : Row := {}
  /-- The depth of what stands before that mark, if there is one. -/
  before : Option Nat := none
deriving DecidableEq, Repr

namespace Nest

/-- The depth of what is held. -/
def depth (n : Nest) : Nat :=
  match n.before with
  | some d => max d n.row.depth + 1
  | none => n.row.depth

/-- With one more part. -/
def add (n : Nest) (depth : Nat) : Nest :=
  { n with row := ⟨n.row.count + 1, max n.row.deepest depth⟩ }

/-- With the last part one deeper than `depth`, as it was. -/
def raise (n : Nest) (depth : Nat) : Nest :=
  { n with row := { n.row with deepest := max n.row.deepest (depth + 1) } }

/-- After the mark of an alternative.  All alternatives are nested alike. -/
def alternative (n : Nest) : Nest := { before := some (max (n.before.getD 0) n.row.depth) }

/-- After the mark of an operation on sets, whose left side is all that was there. -/
def operation (n : Nest) : Nest := { before := some n.depth }

end Nest

/-- The greatest depth of a pattern. -/
def maxDepth : Nat := 250

/-! ### Groups -/

/-- What is known of a pattern up to a place in it. -/
structure Reading where
  mode : Mode := {}
  /-- What the innermost group that is open holds. -/
  nest : Nest := {}
  /-- For each group that is open, the innermost one first, how it is read on after it, and what was held
  before it. -/
  groups : List (Mode × Nest) := []
  names : List (List Char) := []
  /-- The depth of what can be repeated here, if there is anything. -/
  repeatable : Option Nat := none
  /-- What the brackets that are open hold, the innermost ones first. -/
  sets : List Nest := []
  /-- Whether the innermost brackets hold nothing yet but minus signs. -/
  fresh : Bool := false
deriving DecidableEq, Repr

namespace Reading

/-- After something of a depth that can be repeated. -/
def item (r : Reading) (depth : Nat) : Reading :=
  { r with nest := r.nest.add depth, repeatable := some depth }

/-- At the beginning of a group that is read in a mode. -/
def openGroup (r : Reading) (m : Mode) : Reading :=
  { r with mode := m, groups := (r.mode, r.nest) :: r.groups, nest := {}, repeatable := none }

/-- After the end of a group. -/
def closeGroup (r : Reading) : Option Reading :=
  match r.groups with
  | (mode, nest) :: groups => some ({ r with mode, nest, groups }.item (r.nest.depth + 1))
  | [] => none

/-- After the opening bracket of a set. -/
def openSet (r : Reading) : Reading := { r with sets := {} :: r.sets, fresh := true }

/-- After something in the innermost brackets. -/
def member (r : Reading) (depth : Nat) : Reading :=
  match r.sets with
  | n :: sets => { r with sets := n.add depth :: sets, fresh := false }
  | [] => r

/-- After a minus sign at the beginning of the innermost brackets. -/
def dash (r : Reading) : Reading := { r.member 0 with fresh := true }

/-- After the mark of an operation in the innermost brackets. -/
def operation (r : Reading) : Reading :=
  match r.sets with
  | n :: sets => { r with sets := n.operation :: sets, fresh := false }
  | [] => r

/-- After a closing bracket. -/
def closeSet (r : Reading) : Reading :=
  match r.sets with
  | [n] => { r with sets := [], fresh := false }.item (n.depth + 1)
  | n :: sets => { r with sets }.member (n.depth + 1)
  | [] => r

/-- Whether nothing is open and the whole is not too deep. -/
def isComplete (r : Reading) : Bool := r.groups.isEmpty && r.sets.isEmpty && r.nest.depth ≤ maxDepth

end Reading

/-- Whether characters can name a group. -/
def isGroupName : List Char → Bool
  | [] => false
  | c :: cs =>
    (c == '_' || Text.isAlphabetic c) &&
      cs.all fun c => ['_', '.', '[', ']'].contains c || Text.isAlphanumeric c

/-- A group with a name, given what follows the opening angle. -/
def takeNamed (r : Reading) (cs : List Char) : Option (Reading × List Char) :=
  let name := cs.takeWhile fun c => c != '>'
  match cs.drop name.length with
  | _ :: rest =>
    if isGroupName name && !r.names.contains name then
      some ({ r.openGroup r.mode with names := name :: r.names }, rest)
    else none
  | [] => none

/-- The mode after one more flag, which is put off where `off` says so. -/
def Mode.set (m : Mode) (off : Bool) (flag : Char) : Mode :=
  match flag with
  | 'x' => { m with spaced := !off }
  | 'u' => { m with wide := !off }
  | 'i' => { m with caseless := !off }
  | _ => m

/-- The flags, and the minus sign. -/
def flagChars : List Char := ['-', 'i', 'm', 's', 'u', 'x', 'U', 'R']

/-- Reads flags up to the mark that ends them.  Those in `seen`, the last one first, are not given twice, and a
minus sign, which puts those after it off, is not the last. -/
def takeFlags : Mode → (seen : List Char) → List Char → Option ((Mode × List Char) × Char × List Char)
  | _, _, [] => none
  | m, seen, c :: cs =>
    if c = ':' ∨ c = ')' then if seen.head? = some '-' then none else some ((m, seen), c, cs)
    else if seen.contains c || !flagChars.contains c then none
    else takeFlags (m.set (seen.contains '-') c) (c :: seen) cs

/-- A group, or flags for the rest of this one, given what follows the opening parenthesis. -/
def takeGroup (r : Reading) (cs : List Char) : Option (Reading × List Char) :=
  match r.mode.skip cs with
  | '?' :: '=' :: _ | '?' :: '!' :: _ | '?' :: '<' :: '=' :: _ | '?' :: '<' :: '!' :: _ => none
  | '?' :: '<' :: rest | '?' :: 'P' :: '<' :: rest => takeNamed r rest
  | '?' :: rest =>
    match takeFlags r.mode [] rest with
    | some ((m, seen), mark, rest) =>
      if mark = ':' then some (r.openGroup m, rest)
      else if seen.isEmpty then none
      else some ({ r with mode := m, nest := r.nest.add 0, repeatable := none }, rest)
    | none => none
  | rest => some (r.openGroup r.mode, rest)

/-! ### Sets of characters -/

def setNames : List String :=
  ["alnum", "alpha", "ascii", "blank", "cntrl", "digit", "graph", "lower", "print", "punct", "space", "upper",
    "word", "xdigit"]

/-- A set that is named inside brackets, given what follows its own opening bracket: whether it is turned
around, and what is left. -/
def takeNamedSet : List Char → Option (Bool × List Char)
  | ':' :: cs =>
    let (turned, cs) := match cs with
      | '^' :: rest => (true, rest)
      | _ => (false, cs)
    let name := cs.takeWhile fun c => c != ':'
    match cs.drop name.length with
    | ':' :: ']' :: rest => if setNames.contains (String.ofList name) then some (turned, rest) else none
    | _ => none
  | _ => none

/-- Whether something can stand by itself outside brackets. -/
def Mode.allows (m : Mode) : Atom → Bool
  | .literal _ => !m.folds
  | .kind | .place => true

/-- Whether something can be in a set by itself. -/
def Mode.admits (m : Mode) : Atom → Bool
  | .literal c => !m.folds && (m.wide || c.toNat < 0x80)
  | .kind => !m.folds
  | .place => false

/-- What follows the opening bracket of a set, and the mark that turns it around.  A closing bracket that comes
first belongs to the set. -/
def takeFirst (r : Reading) (cs : List Char) : Option (Reading × List Char) :=
  match r.mode.skip cs with
  | ']' :: rest => if r.mode.admits (.literal ']') then some (r.member 0, rest) else none
  | rest => some (r, rest)

/-- A set, given what follows the opening bracket. -/
def takeSet (r : Reading) (cs : List Char) : Option (Reading × List Char) :=
  match r.mode.skip cs with
  | '^' :: rest => if r.mode.wide then takeFirst r.openSet rest else none
  | rest => takeFirst r.openSet rest

/-- A member of a set or the end of a range in it. -/
def takeMember (m : Mode) (c : Char) (cs : List Char) : Option (Atom × List Char) :=
  if c = '\\' then takeEscape m cs else some (.literal c, cs)

/-- Whether one thing up to another is a range. -/
def Mode.admitsRange (m : Mode) : Atom → Atom → Bool
  | .literal a, .literal b => a ≤ b && m.admits (.literal b)
  | _, _ => false

/-- A member of a set, or a range.  A minus sign before a closing bracket or another minus sign makes no
range. -/
def takeRange (m : Mode) (c : Char) (cs : List Char) : Option (List Char) := do
  let (first, rest) ← takeMember m c cs
  let rest := m.skip rest
  let alone := if m.admits first then some rest else none
  match rest with
  | '-' :: after =>
    if m.ahead after = some ']' ∨ m.ahead after = some '-' then alone
    else match m.skip after with
      | d :: after => do
        let (last, after) ← takeMember m d after
        if m.admitsRange first last then some after else none
      | [] => none
  | _ => alone

/-- Reads on inside brackets.  The minus signs that come first stand for themselves. -/
def stepSet (r : Reading) (c : Char) (cs : List Char) : Option (Reading × List Char) :=
  if c = '-' ∧ r.fresh then if r.mode.admits (.literal '-') then some (r.dash, cs) else none
  else if c = '[' then
    match takeNamedSet cs with
    | some (turned, rest) =>
      if turned && !r.mode.wide || !r.mode.admits .kind then none else some (r.member 0, rest)
    | none => takeSet r cs
  else if c = ']' then some (r.closeSet, cs)
  else if ['&', '-', '~'].contains c && cs.head? == some c then some (r.operation, cs.tail)
  else (takeRange r.mode c cs).map fun rest => (r.member 0, rest)

/-! ### Patterns -/

/-- A repetition of what was there last, as few times as possible if a question mark follows. -/
def takeRepetition (r : Reading) (cs : List Char) : Option (Reading × List Char) :=
  let rest := if cs.head? = some '?' then cs.tail else cs
  r.repeatable.map fun d => ({ r with nest := r.nest.raise d, repeatable := some (d + 1) }, rest)

/-- Reads on at a character with others after it. -/
def step (r : Reading) (c : Char) (cs : List Char) : Option (Reading × List Char) :=
  if r.mode.spaced && (Text.isBlank c || c == '#') then some (r, r.mode.skip (c :: cs))
  else if !r.sets.isEmpty then stepSet r c cs
  else match c with
    | '(' => takeGroup r cs
    | ')' => r.closeGroup.map fun r => (r, cs)
    | '|' => some ({ r with nest := r.nest.alternative, repeatable := none }, cs)
    | '[' => takeSet r cs
    | '?' | '*' | '+' => takeRepetition r cs
    | '\x7b' => none
    | '\\' => ((takeEscape r.mode cs).filter fun p => r.mode.allows p.1).map fun p => (r.item 0, p.2)
    | '.' => if r.mode.wide then some (r.item 0, cs) else none
    | '^' | '$' => some (r.item 0, cs)
    | _ => if r.mode.allows (.literal c) then some (r.item 0, cs) else none

/-- Whether the rest of a text completes a pattern; the next `taken` characters have been read already. -/
def completes : Reading → (taken : Nat) → List Char → Bool
  | r, _, [] => r.isComplete
  | r, taken + 1, _ :: cs => completes r taken cs
  | r, 0, c :: cs =>
    match step r c cs with
    | some (r, rest) => completes r (cs.length - rest.length) cs
    | none => false

end Pattern

/-- Whether a text is a pattern. -/
def isPattern (cs : List Char) : Bool := Pattern.completes {} 0 cs

/-- Something to repeat has to stand before a mark of repetition, and a set has to be closed. -/
example : isPattern ['a', '*'] = true ∧ isPattern ['*'] = false ∧ isPattern ['[', 'a'] = false := by decide

end LogRelay.Journal
