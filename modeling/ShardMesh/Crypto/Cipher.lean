import ShardMesh.Crypto.SealedBox
import ShardMesh.Error

/-!
# The encryption stage

A codec either leaves payloads as they are or seals each under its key with a nonce of its own,
which travels in front of the box. Nonces come from a `NonceSource`, a value that moves on with
every draw, so that no two boxes of one source share a nonce until all have been used.
-/

namespace ShardMesh

/-- A supply of nonces. -/
structure NonceSource where
  /-- The number of the next nonce. -/
  next : Nat
  deriving DecidableEq, Repr, Inhabited

/-- The next nonce and the supply after it. -/
def NonceSource.draw (source : NonceSource) : Bytes × NonceSource :=
  (Bytes.ofNatBE SealedBox.nonceLength source.next, ⟨source.next + 1⟩)

/-- What happens to a payload before it is framed. -/
inductive Cipher where
  /-- Payloads travel in the clear. -/
  | plain
  /-- Payloads are sealed with XChaCha20-Poly1305 under a key of 32 bytes. -/
  | sealed (key : Bytes)
  deriving DecidableEq, Repr, Inhabited

namespace Cipher

/-- Encrypts a payload with the given nonce, which a sealed payload carries in front. -/
def encryptWith (nonce : Bytes) : Cipher → Bytes → Bytes
  | .plain, data => data
  | .sealed key, data => nonce ++ SealedBox.close key nonce data

/-- Encrypts a payload with the next nonce of a supply. -/
def encrypt (c : Cipher) (source : NonceSource) (data : Bytes) : Bytes × NonceSource :=
  match c with
  | .plain => (data, source)
  | .sealed _ =>
    let (nonce, source) := source.draw
    (c.encryptWith nonce data, source)

/-- Decrypts a payload. -/
def decrypt : Cipher → Bytes → Except ProtocolError Bytes
  | .plain, data => .ok data
  | .sealed key, data =>
    if data.length < SealedBox.nonceLength then .error .decryptionFailure
    else
      match SealedBox.open? key (data.take SealedBox.nonceLength)
          (data.drop SealedBox.nonceLength) with
      | some opened => .ok opened
      | none => .error .decryptionFailure

/-- The stage's name in diagnostics. -/
def describe : Cipher → String
  | .plain => "NoCrypt"
  | .sealed _ => "ChaChaCrypt"

end Cipher
end ShardMesh
