import ShardMesh.Bytes

/-!
# Bit streams of Zstandard

A byte string read as bits is the little-endian number it spells. Table descriptions are read from
the low bits upward. Entropy-coded streams are read downward from the highest one bit, which only
marks where the stream starts; `BackwardBits` keeps how many bits are left, and that number is
negative once more was read than there is.
-/

namespace ShardMesh.Compression.Zstd

/-- The `count` bits from bit `start` on, as a number; past the end are zeros. -/
def bitsAt (data : Array UInt8) (start count : Nat) : Nat :=
  let first := start / 8
  let word := Nat.fold ((start % 8 + count + 7) / 8)
    (fun i _ n => n + (data.getD (first + i) 0).toNat <<< (8 * i)) 0
  (word >>> (start % 8)) % Nat.pow 2 count

/-- A stream of bits read from its end. -/
structure BackwardBits where
  /-- The bytes of the stream. -/
  data : Array UInt8
  /-- How many bits are left; negative if more were read than there are. -/
  left : Int
  deriving Repr, Inhabited

namespace BackwardBits

/-- The stream of a byte string. Its last byte holds the mark, so it is not zero. -/
def ofBytes? (bytes : Bytes) : Option BackwardBits :=
  match bytes.getLast? with
  | none => none
  | some last =>
    if last = 0 then none
    else some ⟨bytes.toArray, (8 * (bytes.length - 1) + last.toNat.log2 : Nat)⟩

/-- The next `count` bits as a number, with zeros below the stream's beginning. If nothing is left,
the first eight bytes are seen again, and again. -/
def peek (b : BackwardBits) (count : Nat) : Nat :=
  let left := if 0 < b.left then b.left.toNat else 64 - b.left.natAbs % 64
  if count ≤ left then bitsAt b.data (left - count) count
  else bitsAt b.data 0 left <<< (count - left)

/-- Moves past `count` bits. -/
def skip (b : BackwardBits) (count : Nat) : BackwardBits := { b with left := b.left - count }

/-- Reads the next `count` bits. -/
def read (b : BackwardBits) (count : Nat) : Nat × BackwardBits := (b.peek count, b.skip count)

/-- Whether exactly all bits have been read. -/
def isDone (b : BackwardBits) : Bool := b.left == 0

/-- Whether more bits have been read than there are. -/
def isOverread (b : BackwardBits) : Bool := b.left < 0

end BackwardBits

/-! ## Writing -/

/-- Appends the `width` low bits of a number, the highest first. -/
def pushBits (bits : Array Bool) (width value : Nat) : Array Bool :=
  Nat.fold width (fun i _ bits => bits.push (value.testBit (width - 1 - i))) bits

/-- The bytes from which bits are read in the given order: the first bit stands at the top, under
the mark. -/
def backwardBytes (bits : Array Bool) : Bytes :=
  let bitAt (position : Nat) : Bool :=
    if position < bits.size then bits.getD (bits.size - 1 - position) false
    else position == bits.size
  (List.range (bits.size / 8 + 1)).map fun i =>
    UInt8.ofNat (Nat.fold 8 (fun k _ n => n + (bitAt (8 * i + k)).toNat * Nat.pow 2 k) 0)

end ShardMesh.Compression.Zstd
