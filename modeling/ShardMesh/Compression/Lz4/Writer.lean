import ShardMesh.Compression.Lz4
import ShardMesh.Compression.Repetition

/-!
# Writing LZ4 blocks

Data is described by copies of what it holds more than once, and the description is written as a
block.
-/

namespace ShardMesh.Compression.Lz4

/-- The bytes of length that follow a four-bit length: 255 as long as more is to come. -/
def moreLength (rest : Nat) : Bytes :=
  List.replicate (rest / 255) 255 ++ [UInt8.ofNat (rest % 255)]

/-- The four bits of a length. -/
def nibble (length : Nat) : Nat := min length 15

/-- The bytes of length after the token. -/
def overflow (length : Nat) : Bytes := if 15 ≤ length then moreLength (length - 15) else []

/-- The written form of a segment with a copy. -/
def writeSegment (s : Segment) : Bytes :=
  let literals := s.literals.length
  let copy := s.length - minCopy
  UInt8.ofNat (nibble literals * 16 + nibble copy) :: overflow literals ++ s.literals ++
    Bytes.ofNatLE 2 s.offset ++ overflow copy

/-- The written form of the literals at the end. -/
def writeTail (tail : Bytes) : Bytes :=
  UInt8.ofNat (nibble tail.length * 16) :: overflow tail.length ++ tail

/-- The block of a description. -/
def writeBlock (d : Segmentation) : Bytes :=
  d.segments.flatMap writeSegment ++ writeTail d.tail

/-- Copies of a block: the last bytes of the data stay literal. -/
def rules : CopyRules := ⟨minCopy, 65535, 6, 12, 32⟩

/-- The index for data of a length: of short data four bytes make a key, of longer data five. -/
def indexFor (length : Nat) : Index :=
  if length < 65535 then .empty 4 2654435761 12 else .empty 5 889523592379 12

/-- The description of data that is written. -/
def descriptionOf (data : Bytes) : Segmentation :=
  (segment rules data.toArray (indexFor data.length) 0 data.length).1

/-- The data's length and its block. -/
def compress (data : Bytes) : Bytes :=
  Bytes.ofNatLE 4 data.length ++ writeBlock (descriptionOf data)

end ShardMesh.Compression.Lz4
