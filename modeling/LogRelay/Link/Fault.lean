import LogRelay.Address.Basic
import LogRelay.Duration

/-!
# Faults of sockets and links

A `SocketFault` is the failure of one socket.  A `LinkFault` is what an operation on a link comes to when
it does not succeed.
-/

namespace LogRelay

/-- Why a socket failed. -/
inductive SocketFault where
  | notConnected
  /-- What it received had no frame. -/
  | emptyMessage
  | messaging (reason : String)
  | system (reason : String)
deriving DecidableEq, Repr

/-- The wording of a fault. -/
def SocketFault.message : SocketFault → String
  | notConnected => "socket is not connected"
  | emptyMessage => "received an empty message"
  | messaging reason => reason
  | system reason => reason

/-- Why an operation on a link did not succeed. -/
inductive LinkFault where
  /-- It took longer than its limit, in milliseconds. -/
  | timeout (address : Address) (operation : String) (limit : Nat)
  | transport (address : Address) (operation : String) (cause : SocketFault)
  | socket (cause : SocketFault)
  /-- The session was lost after a part of a message had gone out on it. -/
  | interrupted (address : Address)
  | cancelled
deriving DecidableEq, Repr

/-- The wording of a fault. -/
def LinkFault.message : LinkFault → String
  | timeout address operation limit =>
    address.uri ++ ": timed out after " ++ toString limit ++ " ms waiting to " ++ operation
  | transport address operation cause =>
    address.uri ++ ": failed to " ++ operation ++ ": " ++ cause.message
  | socket cause => "failed to open socket: " ++ cause.message
  | interrupted address =>
    "connection to " ++ address.uri ++ " was lost in the middle of a multipart message"
  | cancelled => "connection cancelled"

end LogRelay
