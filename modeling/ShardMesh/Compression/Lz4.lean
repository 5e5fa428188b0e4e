import ShardMesh.Compression.Segment

/-!
# LZ4 blocks

A block is a row of segments. Each starts with a token byte that holds two lengths of four bits,
the full value meaning that more bytes of length follow; then come the literals, the offset of the
copy in two bytes, and more length. The last segment has no copy. In front of the block stands the
length of the data, as four little-endian bytes.
-/

namespace ShardMesh.Compression.Lz4

/-- The shortest copy: lengths are counted from here. -/
def minCopy : Nat := 4

/-- Adds the bytes of length that follow. -/
def readMoreLength : Nat → Bytes → Option (Nat × Bytes)
  | _, [] => none
  | n, b :: rest => if b = 255 then readMoreLength (n + 255) rest else some (n + b.toNat, rest)

/-- A length whose four bits are known. -/
def readLength (nibble : Nat) (bytes : Bytes) : Option (Nat × Bytes) :=
  if nibble = 15 then readMoreLength 15 bytes else some (nibble, bytes)

/-- What stands at the front of a block: a segment with a copy, or the literals at the end. -/
inductive Piece where
  | segment (s : Segment)
  | tail (literals : Bytes)
  deriving DecidableEq, Repr

/-- Reads one piece of a block. -/
def readPiece : Bytes → Option (Piece × Bytes)
  | [] => none
  | token :: rest => do
    let (literalLength, rest) ← readLength (token.toNat / 16) rest
    let literals := rest.take literalLength
    let rest := rest.drop literalLength
    if literals.length < literalLength then none
    else
      match rest with
      | [] => some (.tail literals, [])
      | [_] => none
      | low :: high :: rest =>
        let (copy, rest) ← readLength (token.toNat % 16) rest
        return (.segment ⟨literals, low.toNat + 256 * high.toNat, copy + minCopy⟩, rest)

/-- Reads the pieces of a block, at most `fuel` of them. -/
def readPieces : (fuel : Nat) → Bytes → Array Segment → Option Segmentation
  | 0, _, _ => none
  | fuel + 1, bytes, found =>
    match readPiece bytes with
    | none => none
    | some (.tail literals, _) => some ⟨found.toList, literals⟩
    | some (.segment s, rest) => readPieces fuel rest (found.push s)

/-- The description that a block writes down. Every piece takes a byte or more. -/
def readBlock (bytes : Bytes) : Option Segmentation := readPieces bytes.length bytes #[]

/-- The data of a block, if no copy reaches before its beginning and it has at most `capacity`
bytes. -/
def decodeBlock (capacity : Nat) (bytes : Bytes) : Option Bytes :=
  match readBlock bytes with
  | some d => if d.size ≤ capacity ∧ reachable 0 d.segments then some d.expand else none
  | none => none

/-- The data that compressed bytes stand for; `limit` bounds the length they may announce, and the
announced length bounds the data. -/
def decompress (limit : Nat) (bytes : Bytes) : Option Bytes :=
  if bytes.length < 4 then none
  else
    let announced := Bytes.toNatLE (bytes.take 4)
    if limit < announced then none else decodeBlock announced (bytes.drop 4)

end ShardMesh.Compression.Lz4
