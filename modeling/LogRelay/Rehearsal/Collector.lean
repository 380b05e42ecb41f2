import LogRelay.Box.Seal
import LogRelay.Payload
import LogRelay.Rehearsal.Network

/-!
# What a collector sees

A `Collector` looks at frames as they are sent.  It keeps the last nonce, numbers the ciphertexts that differ,
and opens each ciphertext with its own keys under the last nonce.

* `Collector.view`: what a frame looks like;
* `Collector.open?`: the text in a ciphertext.
-/

namespace LogRelay.Rehearsal

/-- What a frame looks like to a collector. -/
inductive FrameView where
  | nonce (bs : Bytes)
  /-- A ciphertext with its number and the text in it. -/
  | ciphertext (id : Nat) (text : Option String)
deriving DecidableEq, Repr

/-- A collector that looks on. -/
structure Collector where
  box : Box
  nonce : Bytes := []
  /-- The ciphertexts that differ, in the order in which they were seen. -/
  seen : List Bytes := []

namespace Collector

/-- The collector with the given secret that expects what the keys of `k` seal. -/
def ofKeys (secret : Key) (k : Keys) : Collector := { box := Box.ofKeys ⟨k.ourPublic, secret⟩ }

/-- The text in a ciphertext that is sealed under a nonce. -/
def open? (c : Collector) (nonce ciphertext : Bytes) : Option String :=
  match c.box.reveal nonce ciphertext with
  | .error _ => none
  | .ok payload =>
    match Payload.decompress payload with
    | .error _ => none
    | .ok text => some (Utf8.toStringLossy text)

def number (c : Collector) (ciphertext : Bytes) : Nat × Collector :=
  match c.seen.findIdx? (· == ciphertext) with
  | some id => (id, c)
  | none => (c.seen.length, { c with seen := c.seen ++ [ciphertext] })

/-- What a ciphertext looks like. -/
def viewCiphertext (c : Collector) (ciphertext : Bytes) : FrameView × Collector :=
  let text := c.open? c.nonce ciphertext
  let (id, c) := c.number ciphertext
  (.ciphertext id text, c)

/-- What a frame looks like; `more` says that it is not the last of its message. -/
def view (c : Collector) (frame : Bytes) (more : Bool) : FrameView × Collector :=
  if more then (.nonce frame, { c with nonce := frame }) else c.viewCiphertext frame

/-- What a prepared batch looks like to a collector that has just got its nonce. -/
def viewPrepared (c : Collector) (nonce ciphertext : Bytes) : FrameView × Collector :=
  let (v, after) := { c with nonce }.viewCiphertext ciphertext
  (v, { after with nonce := c.nonce })

end Collector

end LogRelay.Rehearsal
