import LogRelay.Json.Token

/-!
# JSON documents

A `Doc` is a document as far as it could be read.  Where reading stopped, the value holds a `Cut`, and so
does every list and object around it: whoever walks a document from left to right sees what was there
before the fault, then the fault.

A document is put together token by token.  The lists and objects that are open are kept as frames, the
innermost first, so no depth of nesting is too much.

* `Doc`: what was read;
* `Assembly.step`: takes one token;
* `read`: the document at the front of a byte string, and whether anything follows it.
-/

namespace LogRelay.Json

/-- A document as far as it could be read. -/
inductive Doc where
  | null
  | flag (b : Bool)
  /-- A number; without a value if it is out of range. -/
  | number (value : Option Numeral)
  /-- A string; without a text if it has none. -/
  | string (text : Option String)
  /-- A list, and what kept it from ending. -/
  | list (items : List Doc) (cut : Option Cut)
  /-- An object, and what kept it from ending. -/
  | object (members : List (Option String × Doc)) (cut : Option Cut)
  | broken (c : Cut)
deriving Repr

/-- What a reader that skips the value meets. -/
def Doc.skipFault? : Doc → Option Fault
  | .list _ cut => cut.map Cut.skipped
  | .object _ cut => cut.map Cut.skipped
  | .broken c => some c.skipped
  | _ => none

/-- A list or an object that is open, with what is before the value to come; the latest is first. -/
inductive Frame where
  | list (items : List Doc)
  /-- An object in which the value of `key` is to come. -/
  | member (members : List (Option String × Doc)) (key : Option String)
deriving Repr

/-- Closes all frames around a value that was cut. -/
def unwind (c : Cut) : List Frame → Doc → Doc
  | [], d => d
  | .list items :: frames, d => unwind c frames (.list (d :: items).reverse (some c))
  | .member members key :: frames, d => unwind c frames (.object ((key, d) :: members).reverse (some c))

/-- How far a document has been put together, and what may come next. -/
inductive Assembly where
  | value (frames : List Frame)
  /-- A value or the end of a list that was just opened. -/
  | item (frames : List Frame)
  /-- A key, or the end of an object that was just opened. -/
  | key (first : Bool) (members : List (Option String × Doc)) (frames : List Frame)
  | colon (members : List (Option String × Doc)) (key : Option String) (frames : List Frame)
  | afterItem (items : List Doc) (frames : List Frame)
  | afterMember (members : List (Option String × Doc)) (frames : List Frame)
  | complete (d : Doc)
  /-- Nothing: something follows the complete document. -/
  | surplus (d : Doc)
  /-- Nothing: the document was cut. -/
  | stopped (d : Doc)
deriving Repr

namespace Assembly

/-- A value is complete. -/
def supply (d : Doc) : List Frame → Assembly
  | [] => .complete d
  | .list items :: frames => .afterItem (d :: items) frames
  | .member members name :: frames => .afterMember ((name, d) :: members) frames

/-- A value could not be read. -/
def stop (c : Cut) (frames : List Frame) (d : Doc) : Assembly := .stopped (unwind c frames d)

/-- A value is missing or broken. -/
def stopValue (c : Cut) (frames : List Frame) : Assembly := stop c frames (.broken c)

/-- Takes the first token of a value. -/
def stepValue (frames : List Frame) : Token → Assembly
  | .listOpen => .item frames
  | .objectOpen => .key true [] frames
  | .null => supply .null frames
  | .flag b => supply (.flag b) frames
  | .number v => supply (.number v) frames
  | .string s => supply (.string s) frames
  | .brokenString c => stopValue c frames
  | .broken c => stopValue c frames
  | .listClose | .objectClose | .comma | .colon => stopValue (Fault.cut .malformed) frames

/-- Takes one token. -/
def step : Assembly → Token → Assembly
  | .value frames, t => stepValue frames t
  | .item frames, .listClose => supply (.list [] none) frames
  | .item frames, t => stepValue (.list [] :: frames) t
  | .key _ members frames, .string s => .colon members s frames
  | .key true members frames, .objectClose => supply (.object members.reverse none) frames
  | .key _ members frames, .brokenString c => stop c frames (.object members.reverse (some c))
  | .key _ members frames, _ =>
    let c := Fault.cut .malformed
    stop c frames (.object members.reverse (some c))
  | .colon members name frames, .colon => .value (.member members name :: frames)
  | .colon members name frames, _ => stopValue (Fault.cut .malformed) (.member members name :: frames)
  | .afterItem items frames, .comma => .value (.list items :: frames)
  | .afterItem items frames, .listClose => supply (.list items.reverse none) frames
  | .afterItem items frames, _ =>
    let c := Fault.cut .malformed
    stop c frames (.list items.reverse (some c))
  | .afterMember members frames, .comma => .key false members frames
  | .afterMember members frames, .objectClose => supply (.object members.reverse none) frames
  | .afterMember members frames, _ =>
    let c := Fault.cut .malformed
    stop c frames (.object members.reverse (some c))
  | .complete d, _ => .surplus d
  | .surplus d, _ => .surplus d
  | .stopped d, _ => .stopped d

/-- What a reading gives: the document, and whether something follows it. -/
structure Outcome where
  doc : Doc
  surplus : Bool
deriving Repr

/-- The outcome when there are no more tokens. -/
def finish : Assembly → Outcome
  | .value frames => ⟨unwind (Fault.cut .ended) frames (.broken (Fault.cut .ended)), false⟩
  | .item frames => ⟨unwind (Fault.cut .ended) frames (.list [] (some (Fault.cut .ended))), false⟩
  | .key _ members frames =>
    ⟨unwind (Fault.cut .ended) frames (.object members.reverse (some (Fault.cut .ended))), false⟩
  | .colon members name frames =>
    ⟨unwind (Fault.cut .ended) (.member members name :: frames) (.broken (Fault.cut .ended)), false⟩
  | .afterItem items frames =>
    ⟨unwind (Fault.cut .ended) frames (.list items.reverse (some (Fault.cut .ended))), false⟩
  | .afterMember members frames =>
    ⟨unwind (Fault.cut .ended) frames (.object members.reverse (some (Fault.cut .ended))), false⟩
  | .complete d => ⟨d, false⟩
  | .surplus d => ⟨d, true⟩
  | .stopped d => ⟨d, false⟩

end Assembly

/-- The document at the front of a byte string. -/
def read (bs : Bytes) : Assembly.Outcome := ((tokens bs).foldl Assembly.step (.value [])).finish

end LogRelay.Json
