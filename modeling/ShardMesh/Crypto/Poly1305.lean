import ShardMesh.Bytes

/-!
# The Poly1305 authenticator

A message is a polynomial over the integers modulo 2^130 - 5 whose coefficients are its blocks of
sixteen bytes; the tag is its value at a clamped secret point plus a secret number, modulo 2^128.
-/

namespace ShardMesh.Poly1305

/-- The modulus. -/
def prime : Nat := Nat.pow 2 130 - 5

/-- Clears the bits of the evaluation point that the authenticator keeps at zero. -/
def clamp (r : Nat) : Nat := r &&& 0x0ffffffc0ffffffc0ffffffc0fffffff

/-- The coefficient of a block: its little-endian value with a one above its last byte. -/
def coefficient (block : Bytes) : Nat := block.toNatLE + Nat.pow 256 block.length

/-- Evaluates the polynomial of `blocks` blocks by Horner's rule. -/
def evaluate (r accumulator : Nat) : (blocks : Nat) → Bytes → Nat
  | 0, _ => accumulator
  | blocks + 1, bytes =>
    evaluate r ((accumulator + coefficient (bytes.take 16)) * r % prime) blocks (bytes.drop 16)

/-- The tag of a message under a one-time key of 32 bytes. -/
def tag (key message : Bytes) : Bytes :=
  let r := clamp (Bytes.toNatLE (key.take 16))
  let s := Bytes.toNatLE (key.drop 16)
  Bytes.ofNatLE 16 ((evaluate r 0 ((message.length + 15) / 16) message + s) % Nat.pow 2 128)

end ShardMesh.Poly1305
