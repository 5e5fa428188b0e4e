import ShardMesh.Compression.Zstd.Huffman.Streams

/-!
# The literals section

A compressed block starts with its literal bytes: as they are, one byte repeated, or Huffman-coded
with a code that stands in front or is that of the block before.
-/

namespace ShardMesh.Compression.Zstd

/-- A plain literals header: how many literals there are, and the bytes after it. The sizes take
5, 12 or 20 bits. -/
def readPlainSize : Bytes → Option (Nat × Bytes)
  | [] => none
  | a :: rest =>
    if a.toNat / 4 % 2 = 0 then some (a.toNat / 8, rest)
    else
      match a.toNat / 4 % 4, rest with
      | 1, b :: rest => some (Bytes.toNatLE [a, b] / 16, rest)
      | 3, b :: c :: rest => some (Bytes.toNatLE [a, b, c] / 16, rest)
      | _, _ => none

/-- The header of coded literals. -/
structure CodedHeader where
  /-- Whether there are four streams. -/
  four : Bool
  /-- How many literals there are. -/
  count : Nat
  /-- How many bytes they take. -/
  size : Nat
  deriving DecidableEq, Repr

/-- Reads the header of coded literals: two numbers of 10, 10, 14 or 18 bits. -/
def readCodedHeader (bytes : Bytes) : Option (CodedHeader × Bytes) :=
  match bytes with
  | a :: _ :: _ :: _ :: _ :: _ =>
    let form := a.toNat / 4 % 4
    let width := if form < 2 then 10 else if form = 2 then 14 else 18
    let length := if form < 2 then 3 else if form = 2 then 4 else 5
    let n := Bytes.toNatLE (bytes.take length)
    some (⟨decide (form ≠ 0), n / 16 % Nat.pow 2 width,
      n / Nat.pow 2 (4 + width) % Nat.pow 2 width⟩,
      bytes.drop length)
  | _ => none

/-- Decodes literals with a code. -/
def decodeLiterals (code : PrefixCode) (header : CodedHeader) (bytes : Bytes) : Option Bytes :=
  Array.toList <$>
    if header.four then code.decodeFourStreams header.count bytes
    else code.decodeStream header.count bytes #[]

/-- Reads the literals section, given the code of an earlier block: the literals, the code for the
next block, and the bytes after the section. -/
def readLiterals (previous : Option PrefixCode) (bytes : Bytes) :
    Option (Bytes × Option PrefixCode × Bytes) :=
  match bytes with
  | [] => none
  | first :: _ =>
    match first.toNat % 4 with
    | 0 => do
      let (count, rest) ← readPlainSize bytes
      if rest.length < count then none
      else return (rest.take count, previous, rest.drop count)
    | 1 => do
      match ← readPlainSize bytes with
      | (count, b :: rest) => return (List.replicate count b, previous, rest)
      | (_, []) => none
    | 2 => do
      let (header, rest) ← readCodedHeader bytes
      if rest.length < header.size then none
      else
        let (code, streams) ← readPrefixCode (rest.take header.size)
        let code := if header.four then code.forMany header.count header.size else code
        return (← decodeLiterals code header streams, some code, rest.drop header.size)
    | _ => do
      let code ← previous
      let (header, rest) ← readCodedHeader bytes
      if rest.length < header.size then none
      else
        return (← decodeLiterals code header (rest.take header.size), previous,
          rest.drop header.size)

end ShardMesh.Compression.Zstd
