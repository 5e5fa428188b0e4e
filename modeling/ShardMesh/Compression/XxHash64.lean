import ShardMesh.Bytes

/-!
# XXH64

The 64-bit checksum of Zstandard frames, with seed zero.
-/

namespace ShardMesh.XxHash64

def prime1 : UInt64 := 0x9E3779B185EBCA87
def prime2 : UInt64 := 0xC2B2AE3D27D4EB4F
def prime3 : UInt64 := 0x165667B19E3779F9
def prime4 : UInt64 := 0x85EBCA77C2B2AE63
def prime5 : UInt64 := 0x27D4EB2F165667C5

/-- Rotation to the left by `n` of 64 bits. -/
def rotl (x : UInt64) (n : UInt64) : UInt64 := (x <<< n) ||| (x >>> (64 - n))

/-- Mixes eight bytes into a lane. -/
def round (lane input : UInt64) : UInt64 := rotl (lane + input * prime2) 31 * prime1

/-- Mixes a lane into the sum. -/
def mergeRound (sum lane : UInt64) : UInt64 := (sum ^^^ round 0 lane) * prime1 + prime4

/-- The little-endian number of `width` bytes at a position. -/
def word (data : Array UInt8) (position width : Nat) : UInt64 :=
  Nat.fold width (fun i _ n => n ||| ((data.getD (position + i) 0).toUInt64 <<< (8 * i).toUInt64)) 0

/-- The four lanes. -/
structure Lanes where
  (a b c d : UInt64)
  deriving DecidableEq, Repr, Inhabited

/-- Mixes stripes of 32 bytes into the lanes. -/
def stripes (data : Array UInt8) (position : Nat) (lanes : Lanes) : (count : Nat) → Lanes
  | 0 => lanes
  | count + 1 =>
    let at' (i : Nat) := word data (position + i) 8
    stripes data (position + 32)
      ⟨round lanes.a (at' 0), round lanes.b (at' 8), round lanes.c (at' 16), round lanes.d (at' 24)⟩
      count

/-- The sum of the lanes. -/
def Lanes.merge (l : Lanes) : UInt64 :=
  let sum := rotl l.a 1 + rotl l.b 7 + rotl l.c 12 + rotl l.d 18
  mergeRound (mergeRound (mergeRound (mergeRound sum l.a) l.b) l.c) l.d

/-- Mixes in the bytes after the last stripe: eights, then a four, then ones. -/
def finish (data : Array UInt8) (position : Nat) (sum : UInt64) : UInt64 :=
  if _h : position + 8 ≤ data.size then
    finish data (position + 8)
      (rotl (sum ^^^ round 0 (word data position 8)) 27 * prime1 + prime4)
  else if position + 4 ≤ data.size then
    finish data (position + 4) (rotl (sum ^^^ (word data position 4 * prime1)) 23 * prime2 + prime3)
  else if position < data.size then
    finish data (position + 1) (rotl (sum ^^^ (word data position 1 * prime5)) 11 * prime1)
  else sum
termination_by data.size - position

/-- Spreads the bits of the sum. -/
def avalanche (sum : UInt64) : UInt64 :=
  let sum := (sum ^^^ (sum >>> 33)) * prime2
  let sum := (sum ^^^ (sum >>> 29)) * prime3
  sum ^^^ (sum >>> 32)

/-- The checksum of data. -/
def hash (data : Array UInt8) : UInt64 :=
  let count := data.size / 32
  let sum :=
    if count = 0 then prime5
    else (stripes data 0 ⟨prime1 + prime2, prime2, 0, 0 - prime1⟩ count).merge
  avalanche (finish data (32 * count) (sum + data.size.toUInt64))

end ShardMesh.XxHash64
