import LogRelay.Box.Curve
import LogRelay.Journal
import LogRelay.Random

/-!
# Keys

A `Key` is 32 octets.  `Keys` pairs the public key of the peer with a secret of our own; both are fixed
for the life of the process.  A secret that is not given is drawn from the random source.

* `Keys.ofBytes`: checks lengths, the public key first;
* `Keys.ourPublic`: the key that the peer needs to open what we seal;
* `Keys.describe`: a text for people that does not give the secret away.
-/

namespace LogRelay

/-- The number of octets in a key. -/
def keySize : Nat := 32

/-- A public or secret key. -/
structure Key where
  bytes : Bytes
  length_eq : bytes.length = keySize
deriving DecidableEq

/-- Which of two keys is meant. -/
inductive KeyRole where
  | theirs
  | ours
deriving DecidableEq, Repr

/-- The name of a key in a message. -/
def KeyRole.name : KeyRole → String
  | .theirs => "public key"
  | .ours => "secret key"

/-- A key of the wrong length. -/
structure KeyLengthFault where
  role : KeyRole
  length : Nat
deriving DecidableEq, Repr

/-- The wording of a fault. -/
def KeyLengthFault.message (f : KeyLengthFault) : String :=
  s!"{f.role.name} must be {keySize} bytes, got {f.length}"

namespace Key

/-- The key of the given octets. -/
def ofBytes (role : KeyRole) (bs : Bytes) : Except KeyLengthFault Key :=
  if h : bs.length = keySize then .ok ⟨bs, h⟩ else .error ⟨role, bs.length⟩

/-- The key of 32 zero octets. -/
def zero : Key := ⟨List.replicate keySize 0, by decide⟩

/-- A key drawn from the random source. -/
def draw (r : Random) : Key × Random :=
  (⟨(r.draw keySize).1, Bytes.length_takePadded _ _⟩, (r.draw keySize).2)

/-- The public key that belongs to a secret. -/
def publicOf (secret : Key) : Key := ⟨Curve.publicOf secret.bytes, Bytes.length_ofNatLE _ _⟩

end Key

/-- The keys of one end of the exchange. -/
structure Keys where
  theirPublic : Key
  ourSecret : Key
deriving DecidableEq

namespace Keys

def ourPublic (k : Keys) : Key := k.ourSecret.publicOf

/-- What the journal says when a secret has to be drawn. -/
def drawnRecord : Journal.Record := Journal.say .info "No secret key given; generating one"

/-- What the journal says when keys are made from an optional secret: whether one had to be drawn. -/
def records (their : Bytes) (secret : Option Bytes) : List Journal.Record :=
  match Key.ofBytes .theirs their, secret with
  | .ok _, none => [drawnRecord]
  | _, _ => []

/-- The keys of the given octets.  A missing secret is drawn, but only if the public key is sound. -/
def ofBytes (their : Bytes) (secret : Option Bytes) (r : Random) : Except KeyLengthFault Keys × Random :=
  match Key.ofBytes .theirs their, secret with
  | .error f, _ => (.error f, r)
  | .ok key, some bs => ((Key.ofBytes .ours bs).map (Keys.mk key), r)
  | .ok key, none => (.ok ⟨key, (Key.draw r).1⟩, (Key.draw r).2)

/-- The keys for people to read: the secret is left out. -/
def describe (k : Keys) : String :=
  let octets := ", ".intercalate (k.theirPublic.bytes.map fun b => toString b.toNat)
  "KeyMaterial \x7b their_public: [" ++ octets ++ "], our_secret: \"<redacted>\" \x7d"

end Keys

end LogRelay
