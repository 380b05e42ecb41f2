import LogRelay.Text.Blank
import LogRelay.Text.Decimal
import LogRelay.Text.Split
import LogRelay.Journal

/-!
# Collector addresses

A collector is named by a host, a host and a port, or a full URI.  `Address.parse` brings all three to a
URI: a bare host gets the default port, and a text with a scheme is kept as it is.  `Address.parseList`
reads several addresses between commas.

* `Address.parse given`: the address, or why there is none;
* `Address.parseList given`: all addresses, or the first fault.
-/

namespace LogRelay

/-- The URI of a collector. -/
structure Address where
  uri : String
deriving DecidableEq, Repr, Inhabited

/-- Why a text names no collector. -/
inductive AddressFault where
  | noServers
  /-- The text is blank or holds a blank character inside. -/
  | blank (given : String)
  /-- The text is neither a host nor a host and a port; `trimmed` is what was looked at. -/
  | malformed (given trimmed : String)
deriving DecidableEq, Repr

namespace AddressFault

/-- The wording of a fault. -/
def message : AddressFault → String
  | noServers => "No servers specified"
  | blank given => "Invalid server address '" ++ given ++ "'"
  | malformed given _ => "Invalid server address '" ++ given ++ "'"

/-- What the journal says of a fault where it is found. -/
def records : AddressFault → List Journal.Record
  | malformed _ trimmed =>
    [Journal.say .error ("Invalid server '" ++ trimmed ++ "': expected 'host' or 'host:port'")]
  | _ => []

end AddressFault

namespace Address

/-- The port of a collector that is named by its host alone. -/
def defaultPort : Nat := 5005

/-- The greatest port number. -/
def maxPort : Nat := 65535

/-- Whether the text holds the mark that separates a scheme from what follows. -/
def hasScheme : List Char → Bool
  | [] => false
  | c :: cs => ['/', '/'].isPrefixOf cs && c == ':' || hasScheme cs

/-- Whether the characters are a port number. -/
def isPort (cs : List Char) : Bool :=
  match Text.parseDecimal maxPort cs with
  | .ok _ => true
  | .error _ => false

/-- The URI of a host and what follows it. -/
def tcp (cs : List Char) : Address := ⟨"tcp://" ++ String.ofList cs⟩

/-- Reads one address. -/
def parse (given : String) : Except AddressFault Address :=
  let cs := Text.trimChars given.toList
  if cs.isEmpty || cs.any Text.isBlank then .error (.blank given)
  else if hasScheme cs then .ok ⟨String.ofList cs⟩
  else
    match Text.splitLast ':' cs with
    | none => .ok (tcp (cs ++ ':' :: (toString defaultPort).toList))
    | some (host, port) =>
      if host.isEmpty || !isPort port then .error (.malformed given (String.ofList cs)) else .ok (tcp cs)

/-- Reads addresses between commas; the first fault from the left is reported. -/
def parseList (given : String) : Except AddressFault (List Address) :=
  if (Text.trimChars given.toList).isEmpty then .error .noServers
  else (Text.splitAt ',' given.toList).mapM fun piece => parse (String.ofList piece)

end Address

end LogRelay
