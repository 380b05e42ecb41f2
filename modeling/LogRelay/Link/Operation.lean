import LogRelay.Link.Basic

/-!
# Operations on a link

An operation connects, sends a frame, receives a reply, or closes.  It runs in small steps: at each stage
it wants something of its surroundings, and goes on when they answer.  An operation that needs a session and
finds none opens a socket and tries collectors on it until one accepts, resting after each failure.

* Connecting and sending try again until they succeed or are called off.  Sending gives up only when the
  session is lost inside a message, whose earlier frames would be missing in a new session.
* Receiving does not try again.
* Whatever fails on a session ends the session.

Definitions:

* `Operation.start`: an operation on a link;
* `Operation.want`: what it wants;
* `Operation.answer`: how it goes on.
-/

namespace LogRelay

/-- What is asked of a socket. -/
inductive Call where
  | connect (a : Address)
  /-- Take a frame; `more` says that it is not the last of its message. -/
  | send (frame : Bytes) (more : Bool)
  | receive
deriving DecidableEq, Repr

/-- What came of a call. -/
inductive Outcome where
  /-- It succeeded; only a received frame has octets. -/
  | done (frame : Bytes)
  | failed (cause : SocketFault)
  | expired
  /-- It was called off before it began. -/
  | withheld
  /-- It was called off before it came to an end. -/
  | abandoned
deriving DecidableEq, Repr

/-- What an operation wants of its surroundings. -/
inductive LinkWant where
  | socket
  | pick (among : AddressSet)
  /-- A call on the socket that takes no longer than the limit, unless all is called off. -/
  | call (c : Call) (limit : Duration)
  | rest (d : Duration)
  | close
  | nothing
deriving DecidableEq

/-- What the surroundings answer. -/
inductive LinkAnswer where
  | socket (r : Except SocketFault Unit)
  | picked (a : Address)
  | outcome (o : Outcome)
  /-- The end of a rest; `false` if all was called off. -/
  | rested (whole : Bool)
  | closed

/-- Whether an answer is of the kind that was wanted. -/
def LinkAnswer.fits : LinkAnswer → LinkWant → Bool
  | socket _, .socket => true
  | picked a, .pick among => a ∈ among.addresses
  | outcome _, .call _ _ => true
  | rested _, .rest _ => true
  | closed, .close => true
  | _, _ => false

/-- What an operation is for. -/
inductive Goal where
  | ensure
  | send (frame : Bytes) (more : Bool)
  | receive
  | close
deriving DecidableEq, Repr

/-- What an operation comes to: a received frame, or no octets; or why it did not succeed. -/
abbrev LinkResult := Except LinkFault Bytes

/-- What follows when a session has been ended. -/
inductive Sequel where
  | again
  /-- The end, after these notices. -/
  | stop (notices : List LinkNotice) (result : LinkResult)

/-- Where an operation stands. -/
inductive Stage where
  | opening
  /-- A collector is being chosen for the attempt after so many failures. -/
  | choosing (failures : Nat)
  | connecting (a : Address) (failures : Nat)
  | resting (failures : Nat)
  /-- A socket that never got connected is being closed, since all was called off. -/
  | releasing
  | using (s : Session)
  | ending (next : Sequel)
  | finished (result : LinkResult)

/-- An operation under way. -/
structure Operation where
  link : Link
  goal : Goal
  stage : Stage

/-- A next state and what is said on the way to it. -/
structure Turn (σ : Type) (ν : Type) where
  notices : List ν
  next : σ

namespace Operation

/-- The stage of an operation that has a session. -/
def stageWith (s : Session) : Goal → Stage
  | .ensure => .finished (.ok [])
  | .send _ _ | .receive => .using s
  | .close => .ending (.stop [] (.ok []))

/-- The stage of an operation that has no session. -/
def stageWithout : Goal → Stage
  | .close => .finished (.ok [])
  | _ => .opening

/-- The operation stays as it is, but for its stage. -/
def goto (o : Operation) (stage : Stage) : Operation := { o with stage }

/-- The session is given up and its socket closed before `next`. -/
def endSession (o : Operation) (s : Session) (notices : List LinkNotice) (next : Sequel) :
    Turn Operation LinkNotice :=
  ⟨notices ++ [.closing s.address], { o with link := { o.link with session := none }, stage := .ending next }⟩

def start (l : Link) (goal : Goal) : Turn Operation LinkNotice :=
  match l.session, goal with
  | none, goal => ⟨[], ⟨l, goal, stageWithout goal⟩⟩
  | some s, .close => endSession ⟨l, .close, .opening⟩ s [] (.stop [] (.ok []))
  | some s, goal => ⟨[], ⟨l, goal, stageWith s goal⟩⟩

/-- The call of an operation that has a session, and its limit. -/
def callOf (l : Link) : Goal → LinkWant
  | .send frame more => .call (.send frame more) l.limits.send
  | .receive => .call .receive l.limits.receive
  | .ensure | .close => .nothing

def want (o : Operation) : LinkWant :=
  match o.stage with
  | .opening => .socket
  | .choosing _ => .pick o.link.servers
  | .connecting a _ => .call (.connect a) o.link.limits.connect
  | .resting failures => .rest (o.link.reconnect.delay failures)
  | .releasing => .close
  | .using _ => callOf o.link o.goal
  | .ending _ => .close
  | .finished _ => .nothing

/-- What an operation has come to. -/
def result? (o : Operation) : Option LinkResult :=
  match o.stage with
  | .finished r => some r
  | _ => none

/-- An attempt to connect begins. -/
def attempt (o : Operation) (a : Address) (failures : Nat) : Turn Operation LinkNotice :=
  ⟨[.connecting a],
    { o with link := { o.link with attempts := o.link.attempts + 1 }, stage := .connecting a failures }⟩

/-- An attempt to connect has succeeded. -/
def connected (o : Operation) (a : Address) (failures : Nat) : Turn Operation LinkNotice :=
  let s : Session := ⟨a, false⟩
  ⟨[.connected a failures],
    { o with
      link := { o.link with session := some s, sessions := o.link.sessions + 1 }
      stage := stageWith s o.goal }⟩

/-- What came of an attempt to connect. -/
def answerConnect (o : Operation) (a : Address) (failures : Nat) :
    Outcome → Turn Operation LinkNotice
  | .done _ => o.connected a failures
  | .failed cause => ⟨[.connectFailed a cause], o.goto (.resting (Reconnect.tally (failures + 1)))⟩
  | .expired =>
    ⟨[.connectExpired a o.link.limits.connect.millis], o.goto (.resting (Reconnect.tally (failures + 1)))⟩
  | .withheld | .abandoned => ⟨[], o.goto .releasing⟩

/-- The session goes on with or without an unfinished message, and the operation has succeeded. -/
def succeed (o : Operation) (s : Session) (midMessage : Bool) (notice : LinkNotice) (frame : Bytes) :
    Turn Operation LinkNotice :=
  ⟨[notice],
    { o with
      link := { o.link with session := some { s with midMessage } }, stage := .finished (.ok frame) }⟩

/-- A frame did not go out: inside a message that is the end, otherwise it is tried again. -/
def failSend (o : Operation) (s : Session) (notice : LinkNotice) (cause : LinkFault) :
    Turn Operation LinkNotice :=
  o.endSession s [notice]
    (if s.midMessage then .stop [.abandoned cause] (.error (.interrupted s.address)) else .again)

/-- What came of sending a frame. -/
def answerSend (o : Operation) (s : Session) (frame : Bytes) (more : Bool) :
    Outcome → Turn Operation LinkNotice
  | .done _ => o.succeed s more (.sent s.address frame.length) []
  | .failed cause =>
    o.failSend s (.sendFailed s.address frame.length cause) (.transport s.address "send" cause)
  | .expired =>
    o.failSend s (.sendExpired s.address frame.length)
      (.timeout s.address "send" o.link.limits.send.millis)
  | .withheld | .abandoned => ⟨[], o.goto (.finished (.error .cancelled))⟩

/-- What came of waiting for a reply. -/
def answerReceive (o : Operation) (s : Session) : Outcome → Turn Operation LinkNotice
  | .done frame => o.succeed s false (.received s.address frame.length) frame
  | .failed cause =>
    o.endSession s [.receiveFailed s.address cause]
      (.stop [] (.error (.transport s.address "receive" cause)))
  | .expired =>
    let fault := LinkFault.timeout s.address "receive" o.link.limits.receive.millis
    o.endSession s [] (.stop [.receiveExpired fault] (.error fault))
  | .withheld | .abandoned => ⟨[], o.goto (.finished (.error .cancelled))⟩

/-- How an operation goes on.  An answer that was not wanted changes nothing. -/
def answer (o : Operation) (a : LinkAnswer) : Turn Operation LinkNotice :=
  match o.stage, a with
  | .opening, .socket (.ok _) => ⟨[], o.goto (.choosing 0)⟩
  | .opening, .socket (.error cause) => ⟨[], o.goto (.finished (.error (.socket cause)))⟩
  | .choosing failures, .picked a => o.attempt a failures
  | .connecting a failures, .outcome r => o.answerConnect a failures r
  | .resting failures, .rested true => ⟨[], o.goto (.choosing failures)⟩
  | .resting _, .rested false => ⟨[], o.goto .releasing⟩
  | .releasing, .closed => ⟨[], o.goto (.finished (.error .cancelled))⟩
  | .using s, .outcome r =>
    match o.goal with
    | .send frame more => o.answerSend s frame more r
    | .receive => o.answerReceive s r
    | .ensure | .close => ⟨[], o⟩
  | .ending .again, .closed => ⟨[], o.goto .opening⟩
  | .ending (.stop notices result), .closed => ⟨notices, o.goto (.finished result)⟩
  | _, _ => ⟨[], o⟩

end Operation

end LogRelay
