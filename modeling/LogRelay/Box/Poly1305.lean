import LogRelay.Bytes

/-!
# The one-time authenticator

`Poly1305.tag key message` evaluates a polynomial whose coefficients are the blocks of the message, each
with a one above its highest octet, at a clamped point modulo `2 ^ 130 - 5`, and adds the second half of
the key.  The result has sixteen octets.
-/

namespace LogRelay.Poly1305

/-- The modulus of the polynomial. -/
def modulus : Nat := Nat.pow 2 130 - 5

/-- The bits of the point that may be set. -/
def clampMask : Nat := 0x0ffffffc0ffffffc0ffffffc0fffffff

/-- The value of a block: its octets with a one above them. -/
def coefficient (block : Bytes) : Nat := Bytes.toNatLE block + Bytes.count block.length

/-- Evaluates the polynomial of a message at `r` onto the value `acc`. -/
def evaluate (r acc : Nat) : Bytes → Nat
  | [] => acc
  | b :: rest =>
    evaluate r ((acc + coefficient ((b :: rest).take 16)) * r % modulus) ((b :: rest).drop 16)
termination_by bs => bs.length
decreasing_by simp only [List.length_drop, List.length_cons]; omega

/-- The tag of a message under a key of 32 octets. -/
def tag (key message : Bytes) : Bytes :=
  let r := Bytes.toNatLE (key.take 16) &&& clampMask
  let s := Bytes.toNatLE (key.drop 16)
  Bytes.ofNatLE 16 (evaluate r 0 message + s)

@[simp] theorem length_tag (key message : Bytes) : (tag key message).length = 16 := by
  simp [tag]

end LogRelay.Poly1305
