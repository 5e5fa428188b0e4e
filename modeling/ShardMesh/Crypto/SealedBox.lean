import ShardMesh.Crypto.ChaCha20
import ShardMesh.Crypto.Poly1305

/-!
# Sealed boxes: XChaCha20-Poly1305

Data encrypted and authenticated under a key of 32 bytes and a nonce of 24. The box is the
ciphertext with a tag of sixteen bytes behind it; a box whose tag is wrong does not open. There is
no associated data.
-/

namespace ShardMesh.SealedBox

/-- The length of a nonce. -/
def nonceLength : Nat := 24

/-- The length of a tag. -/
def tagLength : Nat := 16

/-- The derived key of a nonce, and the short nonce used with it. -/
def session (key nonce : Bytes) : Bytes × Bytes :=
  (ChaCha20.deriveKey key (nonce.take 16), List.replicate 4 0 ++ nonce.drop 16)

/-- Zeros that fill the last block of sixteen bytes. -/
def fill (length : Nat) : Bytes := List.replicate ((16 - length % 16) % 16) 0

/-- The tag of a ciphertext. -/
def tagOf (key shortNonce ciphertext : Bytes) : Bytes :=
  let authKey := (ChaCha20.block key shortNonce 0).take 32
  Poly1305.tag authKey (ciphertext ++ fill ciphertext.length ++ Bytes.ofNatLE 8 0 ++
    Bytes.ofNatLE 8 ciphertext.length)

/-- Encrypts data and appends its tag. -/
def close (key nonce data : Bytes) : Bytes :=
  let (key, shortNonce) := session key nonce
  let ciphertext := ChaCha20.apply key shortNonce 1 data
  ciphertext ++ tagOf key shortNonce ciphertext

/-- The data of a box, if the tag is right. -/
def open? (key nonce box : Bytes) : Option Bytes :=
  if box.length < tagLength then none
  else
    let (key, shortNonce) := session key nonce
    let ciphertext := box.take (box.length - tagLength)
    if box.drop (box.length - tagLength) = tagOf key shortNonce ciphertext then
      some (ChaCha20.apply key shortNonce 1 ciphertext)
    else none

end ShardMesh.SealedBox
