import LogRelay.Address.Host
import LogRelay.Link.Operation
import LogRelay.Messaging.Path
import LogRelay.Text.Alphanumeric
import LogRelay.Text.Decimal

/-!
# Messages of several frames

A `Requester` is a socket that sends requests of several frames.  Frames that more will follow are held; the
last one takes them along, and the whole message is handed over at once.  Whatever comes of that, nothing of
the message is kept.

* `Requester.send`: takes a frame, and hands over a message if it is the last one;
* `FrameOutcome.told`: what the caller is told of it;
* `Requester.close`: lets the socket go, and what it held;
* `reachFault?`: why a collector cannot be reached when there is no network.
-/

namespace LogRelay

/-- A socket that sends requests of several frames. -/
structure Requester where
  present : Bool := true
  /-- The frames of the message that is not finished, the first one first. -/
  held : List Bytes := []
deriving DecidableEq, Repr

/-- What comes of a frame. -/
inductive FrameOutcome where
  | held
  | handed (message : List Bytes)
  /-- It finished a message, but the socket is gone. -/
  | lost
deriving DecidableEq, Repr

/-- What the caller is told of a frame, if `answer` is what comes of handing over a message, or `none` if that
never ends. -/
def FrameOutcome.told (answer : Option (Except SocketFault Unit)) :
    FrameOutcome → Option (Except SocketFault Unit)
  | held => some (.ok ())
  | handed _ => answer
  | lost => some (.error .notConnected)

namespace Requester

/-- Takes a frame; `more` says that it is not the last of its message. -/
def send (r : Requester) (frame : Bytes) (more : Bool) : FrameOutcome × Requester :=
  let message := r.held ++ [frame]
  if more then (.held, { r with held := message })
  else (if r.present then .handed message else .lost, { r with held := [] })

/-- Lets the socket go. -/
def close (_ : Requester) : Requester := ⟨false, []⟩

end Requester

/-! ### Without a network -/

/-- The scheme and the rest of a URI, if the scheme is of lower-case letters. -/
def splitScheme (cs : List Char) : Option (List Char × List Char) :=
  let scheme := cs.takeWhile fun c => 'a' ≤ c && c ≤ 'z'
  match cs.drop scheme.length with
  | ':' :: '/' :: '/' :: rest => if scheme.isEmpty || rest.isEmpty then none else some (scheme, rest)
  | _ => none

/-- Why a host and port are none, if they are not.  The digits of any script look like a port, but only ASCII
ones are a number. -/
def hostPortFault? (cs : List Char) : Option String :=
  match Text.splitLast ':' cs with
  | some (host, port) =>
    if host.isEmpty || port.isEmpty || !port.all Text.isDecimalDigit then
      some "Could not parse host and port"
    else if Address.isPort port then none
    else some "Port must be a u16 but was out of range"
  | none => some "Could not parse host and port"

/-- The host of a host and port. -/
def hostOf (cs : List Char) : List Char :=
  match Text.splitLast ':' cs with
  | some (host, _) => host
  | none => cs

/-- What stands between brackets, if a text does. -/
def withoutBrackets (cs : List Char) : List Char :=
  if cs.head? = some '[' ∧ cs.getLast? = some ']' then cs.tail.dropLast else cs

/-- Why a host that is given by eight words cannot be reached when there is no network. -/
def wordsFault (words : List Nat) : String :=
  let first := words.headD 0
  if first / 256 = 0xFF ∨ words.take 6 = [0, 0, 0, 0, 0, 0xFFFF] then "Network is unreachable (os error 101)"
  else if 0xFE80 ≤ first ∧ first < 0xFEC0 then "Invalid argument (os error 22)"
  else "Cannot assign requested address (os error 99)"

/-- Why a host cannot be reached when there is no network.  Only a host that is given by its number, or is this
one, is found without asking anyone. -/
def hostFault (host : List Char) : String :=
  if host.contains '\x00' then "file name contained an unexpected NUL byte"
  else if Host.isLooseNumber host || Host.isLocal host then "Network is unreachable (os error 101)"
  else
    match (Host.words? host).or (Host.words? (withoutBrackets host)) with
    | some words => wordsFault words
    | none =>
      "failed to lookup address information: " ++
        (if Host.isName host then "Temporary failure in name resolution" else "Name or service not known")

/-- Why a collector cannot be reached when there is no network, or `none` if it refuses to be: then it is asked
again and again, without end. -/
def reachFault? (a : Address) : Option SocketFault :=
  let syntaxFault := fun reason => SocketFault.messaging ("Endpoint Error: Invalid Syntax: " ++ reason)
  let networkFault := fun reason => SocketFault.messaging ("Network Error: " ++ reason)
  match splitScheme a.uri.toList with
  | none => some (syntaxFault "Could not parse transport")
  | some (scheme, rest) =>
    if scheme = "tcp".toList then
      match hostPortFault? rest with
      | some reason => some (syntaxFault reason)
      | none => some (networkFault (hostFault (hostOf rest)))
    else if scheme = "ipc".toList then (Path.reachFault? rest).map networkFault
    else some (.messaging ("Endpoint Error: Unknown transport type " ++ String.ofList scheme))

/-- What comes of handing over a message when there is no network. -/
def handOverFault : SocketFault :=
  .messaging "Failed to deliver message cause of Not connected to peers. Unable to send messages"

/-- What comes of waiting for a reply to no request. -/
def noRequestFault : SocketFault := .messaging "Unable to recv. No request in progress"

namespace Requester

/-- What comes of a call when there is no network, or `none` if it never ends. -/
def attempt (r : Requester) : Call → Option (Except SocketFault Unit) × Requester
  | .connect a => (if r.present then (reachFault? a).map .error else some (.error .notConnected), r)
  | .send frame more =>
    let (outcome, r) := r.send frame more
    (outcome.told (some (.error handOverFault)), r)
  | .receive => (some (.error (if r.present then noRequestFault else .notConnected)), r)

end Requester

end LogRelay
