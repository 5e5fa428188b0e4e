import ShardMesh.Compression.Zstd.Fse

/-!
# Huffman-coded literals

A prefix code is described by a weight per symbol: a symbol of weight w > 0 has a code of
`depth + 1 - w` bits. The weight of the last symbol is not written, it is what completes the code.
Weights are written as half bytes or with a finite state table.
-/

namespace ShardMesh.Compression.Zstd

/-- The longest code. -/
def maxDepth : Nat := 12

/-- A prefix code. -/
structure PrefixCode where
  /-- The bits of the longest code words. -/
  depth : Nat
  /-- For the next `depth` bits, the symbol that they start with and the length of its code word. -/
  entries : Array (UInt8 × Nat)
  /-- How many bits are looked at to decode two symbols at once, if the second fits in; otherwise
  symbols are decoded one by one. -/
  pairSpan : Option Nat := none
  deriving Repr, Inhabited

namespace PrefixCode

/-- The code cells that a weight stands for. -/
def cellsOf (weight : Nat) : Nat := Nat.pow 2 weight / 2

/-- The code of weights without the last one. -/
def ofWeights? (weights : List Nat) : Option PrefixCode :=
  let total := (weights.map cellsOf).foldl (· + ·) 0
  if total = 0 ∨ weights.any (maxDepth < ·) then none
  else
    let depth := total.log2 + 1
    let rest := Nat.pow 2 depth - total
    if maxDepth < depth ∨ rest ≠ Nat.pow 2 rest.log2 then none
    else
      let weights := weights ++ [rest.log2 + 1]
      let ones := weights.count 1
      if ones < 2 ∨ ones % 2 = 1 then none
      else
        let entriesOf (weight : Nat) : List (UInt8 × Nat) :=
          weights.zipIdx.flatMap fun (w, symbol) =>
            if w = weight then
              List.replicate (cellsOf w) (UInt8.ofNat symbol, depth + 1 - w)
            else []
        some
          { depth, entries := ((List.range depth).flatMap fun i => entriesOf (i + 1)).toArray }

/-- What is decoded at once: one symbol or two, and the bits that they take. -/
structure Decoded where
  first : UInt8
  second : Option UInt8
  bits : Nat
  deriving DecidableEq, Repr, Inhabited

/-- What comes next. -/
def next (code : PrefixCode) (b : BackwardBits) : Decoded :=
  match code.pairSpan with
  | none =>
    let (symbol, bits) := code.entries.getD (b.peek code.depth) (0, 0)
    ⟨symbol, none, bits⟩
  | some span =>
    let ahead := b.peek span
    let entry (ahead : Nat) := code.entries.getD (ahead >>> (span - code.depth)) (0, 0)
    let (symbol, bits) := entry ahead
    let (other, more) := entry (ahead <<< bits % Nat.pow 2 span)
    if bits + more ≤ span then ⟨symbol, some other, bits + more⟩ else ⟨symbol, none, bits⟩

/-- Moves past the last symbol of a stream. If two were decoded and the second lacks bits, all bits
count as read. -/
def skipLast (d : Decoded) (b : BackwardBits) : BackwardBits :=
  if d.second.isSome then { b with left := min b.left (max 0 (b.left - d.bits)) }
  else b.skip d.bits

/-- Decodes `count` symbols, whatever is left of the stream then. -/
def decodeSome (code : PrefixCode) : (count : Nat) → BackwardBits → Array UInt8 →
    BackwardBits × Array UInt8
  | 0, b, out => (b, out)
  | 1, b, out =>
    let d := code.next b
    (skipLast d b, out.push d.first)
  | count + 2, b, out =>
    let d := code.next b
    match d.second with
    | some other => decodeSome code count (b.skip d.bits) ((out.push d.first).push other)
    | none => decodeSome code (count + 1) (b.skip d.bits) (out.push d.first)

/-- The `count` symbols of one stream, which has to end with them, appended to what was decoded
before. -/
def decodeStream (code : PrefixCode) (count : Nat) (bytes : Bytes) (out : Array UInt8) :
    Option (Array UInt8) := do
  let b ← BackwardBits.ofBytes? bytes
  let (b, out) := code.decodeSome count b out
  if b.isDone then some out else none

end PrefixCode

/-! ## Reading the weights -/

/-- Half bytes, high half first. -/
def halves (bytes : Bytes) : List Nat :=
  bytes.flatMap fun b => [b.toNat / 16, b.toNat % 16]

/-- Decodes weights with two states that take turns, until the stream is exhausted: then the state
whose turn it is yields its symbol once more. At most `fuel` turns are taken. -/
def decodeWeights (t : Table) : (fuel : Nat) → (turn other : Nat) → BackwardBits → Array Nat →
    Option (List Nat)
  | 0, _, _, _, _ => none
  | fuel + 1, turn, other, b, weights =>
    let weights := weights.push (t.cell turn).symbol
    let (next, b) := t.step turn b
    if b.isOverread then some (weights.push (t.cell other).symbol).toList
    else decodeWeights t fuel other next b weights

/-- The most weights that can be written: one symbol's is implied. -/
def maxWeights : Nat := 255

/-- Reads weights written with a finite state table. -/
def readCodedWeights (bytes : Bytes) : Option (List Nat) := do
  let (table, rest) ← readTable 255 6 bytes
  let b ← BackwardBits.ofBytes? rest
  let (first, b) := table.start b
  let (second, b) := table.start b
  if b.isOverread then none
  else decodeWeights table (maxWeights - 1) first second b #[]

/-- Reads the description of a prefix code: the code, and the bytes after it. -/
def readPrefixCode (bytes : Bytes) : Option (PrefixCode × Bytes) :=
  match bytes with
  | [] => none
  | head :: rest => do
    let head := head.toNat
    if head < 128 then
      if rest.length < head then none
      else
        let weights ← readCodedWeights (rest.take head)
        let code ← PrefixCode.ofWeights? weights
        return (code, rest.drop head)
    else
      let count := head - 127
      let size := (count + 1) / 2
      if rest.length < size then none
      else
        let code ← PrefixCode.ofWeights? ((halves (rest.take size)).take count)
        return (code, rest.drop size)

end ShardMesh.Compression.Zstd
