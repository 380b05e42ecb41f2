import LogRelay.Text.Split
import LogRelay.Text.Utf8

/-!
# Paths of local sockets

A local socket is found at a path in the file system, or under an abstract name that is in no file system.  What
the file system holds is not known, except for what every machine has: some directories and devices.  None of
these is a socket, and nobody listens under any abstract name.

* `Path.resolve`: what a path leads to;
* `Path.reachFault?`: why a local socket cannot be reached.
-/

namespace LogRelay.Path

/-- What a path leads to. -/
inductive Place where
  /-- The directory that these names lead to from the root, the last one first. -/
  | directory (names : List String)
  /-- A directory of which nothing else is known. -/
  | somewhere
  | file
deriving DecidableEq, Repr

/-- Why a path leads nowhere. -/
inductive Fault where
  | missing
  /-- It goes on behind something that is no directory. -/
  | notDirectory
deriving DecidableEq, Repr

/-- The wording of a fault. -/
def Fault.message : Fault → String
  | missing => "No such file or directory (os error 2)"
  | notDirectory => "Not a directory (os error 20)"

/-- The directories that every machine has, besides the root. -/
def directories : List (List String) := [["dev"], ["etc"], ["proc"], ["tmp"], ["usr"], ["var"]]

/-- What else every machine has. -/
def files : List (List String) :=
  [["null", "dev"], ["zero", "dev"], ["full", "dev"], ["random", "dev"], ["urandom", "dev"], ["passwd", "etc"]]

/-- What a name leads to from a place. -/
def Place.enter : Place → (name : String) → Except Fault Place
  | file, _ => .error .notDirectory
  | p, "" => .ok p
  | p, "." => .ok p
  | somewhere, ".." => .ok .somewhere
  | directory names, ".." => .ok (.directory names.tail)
  | somewhere, _ => .error .missing
  | directory names, name =>
    if directories.contains (name :: names) then .ok (.directory (name :: names))
    else if files.contains (name :: names) then .ok .file
    else .error .missing

/-- What a path leads to.  It starts at the root if a slash comes first. -/
def resolve (cs : List Char) : Except Fault Place :=
  let start : Place := if cs.head? = some '/' then .directory [] else .somewhere
  (Text.splitAt '/' cs).foldlM (fun p name => p.enter (String.ofList name)) start

/-- The number of octets that there are for a path and the zero that ends it, or for the zero that an abstract
name begins with and the name. -/
def room : Nat := 108

/-- Why a local socket cannot be reached, or `none` if it is refused because nobody listens. -/
def reachFault? (cs : List Char) : Option String :=
  let size := (Utf8.encode cs).length
  if cs.head? = some '\x00' then
    if size ≤ room then none else some "abstract socket name must be shorter than SUN_LEN"
  else if cs.contains '\x00' then some "paths must not contain interior null bytes"
  else if room ≤ size then some "path must be shorter than SUN_LEN"
  else
    match resolve cs with
    | .ok _ => none
    | .error f => some f.message

end LogRelay.Path
