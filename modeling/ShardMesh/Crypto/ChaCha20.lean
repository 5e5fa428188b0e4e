import ShardMesh.Bytes

/-!
# The ChaCha20 key stream

The block function of RFC 8439 and the key derivation that extends its nonce to 24 bytes. A key
stream is combined with data by exclusive or, so applying it twice gives the data back
(`mask_mask`).
-/

namespace ShardMesh.ChaCha20

/-- The sixteen words of the cipher's state, in order. -/
abbrev State := Array UInt32

/-- Rotation to the left by `n` of 32 bits. -/
def rotl (x : UInt32) (n : UInt32) : UInt32 := (x <<< n) ||| (x >>> (32 - n))

/-- Stirs four words of the state. -/
def quarterRound (s : State) (a b c d : Nat) : State :=
  let x (i : Nat) (s : State) : UInt32 := s.getD i 0
  let s := s.setIfInBounds a (x a s + x b s)
  let s := s.setIfInBounds d (rotl (x d s ^^^ x a s) 16)
  let s := s.setIfInBounds c (x c s + x d s)
  let s := s.setIfInBounds b (rotl (x b s ^^^ x c s) 12)
  let s := s.setIfInBounds a (x a s + x b s)
  let s := s.setIfInBounds d (rotl (x d s ^^^ x a s) 8)
  let s := s.setIfInBounds c (x c s + x d s)
  s.setIfInBounds b (rotl (x b s ^^^ x c s) 7)

/-- Four columns, then four diagonals. -/
def doubleRound (s : State) : State :=
  let s := quarterRound s 0 4 8 12
  let s := quarterRound s 1 5 9 13
  let s := quarterRound s 2 6 10 14
  let s := quarterRound s 3 7 11 15
  let s := quarterRound s 0 5 10 15
  let s := quarterRound s 1 6 11 12
  let s := quarterRound s 2 7 8 13
  quarterRound s 3 4 9 14

/-- Twenty rounds. -/
def rounds (s : State) : State := Nat.fold 10 (fun _ _ s => doubleRound s) s

/-- Little-endian words of four bytes. -/
def wordsOf : Bytes → List UInt32
  | a :: b :: c :: d :: rest =>
    (a.toUInt32 ||| b.toUInt32 <<< 8 ||| c.toUInt32 <<< 16 ||| d.toUInt32 <<< 24) :: wordsOf rest
  | _ => []

/-- The bytes of words, little-endian. -/
def bytesOf (words : List UInt32) : Bytes :=
  words.flatMap fun w => Bytes.ofNatLE 4 w.toNat

/-- The text "expand 32-byte k" as words. -/
def constants : List UInt32 := [0x61707865, 0x3320646e, 0x79622d32, 0x6b206574]

/-- The state of a key of 32 bytes and 16 bytes of counter and nonce. -/
def stateOf (key tail : Bytes) : State := (constants ++ wordsOf key ++ wordsOf tail).toArray

/-- The 64 key stream bytes of a block number, for a nonce of 12 bytes. -/
def block (key nonce : Bytes) (counter : Nat) : Bytes :=
  let s := stateOf key (Bytes.ofNatLE 4 counter ++ nonce)
  bytesOf (List.zipWith (· + ·) s.toList (rounds s).toList)

/-- The key stream from a block number on, in whole blocks. -/
def keyStream (key nonce : Bytes) (counter : Nat) : (blocks : Nat) → Bytes
  | 0 => []
  | blocks + 1 => block key nonce counter ++ keyStream key nonce (counter + 1) blocks

/-- Exclusive or with as much of a key stream as there is data. -/
def mask (stream data : Bytes) : Bytes := List.zipWith (· ^^^ ·) data stream

/-- Encrypts or decrypts, starting at a block number. -/
def apply (key nonce : Bytes) (counter : Nat) (data : Bytes) : Bytes :=
  mask (keyStream key nonce counter ((data.length + 63) / 64)) data

/-- The key that a key of 32 bytes and 16 bytes of nonce stand for together. -/
def deriveKey (key nonce : Bytes) : Bytes :=
  let words := (rounds (stateOf key nonce)).toList
  bytesOf (words.take 4 ++ words.drop 12)

/-- Masking twice with a stream that covers the data gives the data back. -/
theorem mask_mask (stream data : Bytes) (h : data.length ≤ stream.length) :
    mask stream (mask stream data) = data := by
  induction data generalizing stream with
  | nil => simp [mask]
  | cons b data ih =>
    cases stream with
    | nil => simp at h
    | cons k stream =>
      have := ih stream (by simpa using h)
      simp only [mask] at this
      simp only [mask, List.zipWith_cons_cons, this, UInt8.xor_assoc, UInt8.xor_self,
        UInt8.xor_zero]

end ShardMesh.ChaCha20
