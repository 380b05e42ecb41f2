import LogRelay.Journal
import LogRelay.Link.Fault
import LogRelay.Link.Settings

/-!
# Links

A `Link` is a connection to one of several collectors.  It has at most one session, and any failure ends
the session; the next operation connects anew, to a collector chosen at random.

* `Link.ofSettings`: a link without a session;
* `LinkNotice`: what a link says about itself.
-/

namespace LogRelay

/-- A connected socket. -/
structure Session where
  address : Address
  /-- Whether the last frame that went out is not the last of its message. -/
  midMessage : Bool
deriving DecidableEq, Repr

/-- A connection to one of several collectors. -/
structure Link where
  servers : AddressSet
  limits : Limits
  reconnect : Reconnect
  session : Option Session := none
  sessions : Nat := 0
  attempts : Nat := 0
deriving DecidableEq

/-- A link cannot be made without knowing the role of its sockets. -/
inductive LinkSettingsFault where
  | missingKind
deriving DecidableEq, Repr

namespace Link

/-- A link that is not connected. -/
def ofSettings (s : LinkSettings) : Except LinkSettingsFault Link :=
  match s.kind with
  | none => .error .missingKind
  | some _ => .ok { servers := s.servers, limits := s.limits, reconnect := s.reconnect }

/-- Whether there is a session. -/
def isConnected (l : Link) : Bool := l.session.isSome

/-- The collector of the session. -/
def address? (l : Link) : Option Address := l.session.map Session.address

end Link

/-- What a link says about itself. -/
inductive LinkNotice where
  | connecting (a : Address)
  | connected (a : Address) (failures : Nat)
  | connectFailed (a : Address) (cause : SocketFault)
  /-- It took longer than its limit, in milliseconds. -/
  | connectExpired (a : Address) (limit : Nat)
  | sent (a : Address) (size : Nat)
  | sendFailed (a : Address) (size : Nat) (cause : SocketFault)
  | sendExpired (a : Address) (size : Nat)
  /-- The message that the frame belongs to cannot be finished. -/
  | abandoned (cause : LinkFault)
  | received (a : Address) (size : Nat)
  | receiveFailed (a : Address) (cause : SocketFault)
  | receiveExpired (fault : LinkFault)
  | closing (a : Address)
deriving DecidableEq, Repr

def LinkNotice.record : LinkNotice → Journal.Record
  | connecting a => Journal.say .info ("Connecting to " ++ a.uri)
  | connected a failures =>
    Journal.say .debug (a.uri ++ ": connected after " ++ toString failures ++ " failed attempts")
  | connectFailed a cause => Journal.say .warn (a.uri ++ ": Error connecting: " ++ cause.message)
  | connectExpired a limit =>
    Journal.say .warn (a.uri ++ ": timed out connecting after " ++ toString limit ++ " ms")
  | sent a size => Journal.say .trace (a.uri ++ ": sent " ++ toString size ++ " byte frame")
  | sendFailed a size cause =>
    Journal.say .error
      (a.uri ++ ": Failed to send " ++ toString size ++ " byte message: " ++ cause.message)
  | sendExpired a size =>
    Journal.say .warn (a.uri ++ ": timed out waiting to send " ++ toString size ++ " byte message")
  | abandoned cause => Journal.say .debug ("Abandoning partial message after " ++ cause.message)
  | received a size => Journal.say .trace (a.uri ++ ": received " ++ toString size ++ " byte reply")
  | receiveFailed a cause =>
    Journal.say .error (a.uri ++ ": Failed to receive message: " ++ cause.message)
  | receiveExpired fault => Journal.say .warn fault.message
  | closing a => Journal.say .debug (a.uri ++ ": closing connection")

end LogRelay
