import ShardMesh.Compression.Zstd.Huffman

/-!
# Designing prefix codes

A code for given bytes divides a number of cells among the symbols that occur: each gets a power of
two, about as large as its share of the bytes, until no cell is left. The logarithms of these powers
are the weights that describe the code.
-/

namespace ShardMesh.Compression.Zstd

/-! ## Shares -/

/-- How often every byte occurs. -/
def countsOf (bytes : Bytes) : Array Nat :=
  bytes.foldl (fun counts b => counts.modify b.toNat (· + 1)) (Array.replicate 256 0)

/-- The most bits of a designed code. -/
def designDepth : Nat := 11

/-- The number of cells that are divided. -/
def designCells : Nat := Nat.pow 2 designDepth

/-- The cells that a symbol gets at first. Even if all symbols occur there are enough. -/
def firstShare (total count : Nat) : Nat :=
  if count = 0 then 0 else Nat.pow 2 (1 + count * (designCells - 256) / total).log2

/-- The symbol with the most occurrences per cell, among those whose cells can be doubled. -/
def neediest? (counts shares : Array Nat) (room : Nat) : Option Nat :=
  (List.range 256).foldl
    (fun best s =>
      let share := shares.getD s 0
      if share = 0 ∨ room < share then best
      else
        match best with
        | none => some s
        | some t =>
          if counts.getD t 0 * share < counts.getD s 0 * shares.getD t 0 then some s else some t)
    none

/-- Doubles shares as long as there is room. -/
def fillShares (counts : Array Nat) : (fuel : Nat) → (room : Nat) → Array Nat → Array Nat
  | 0, _, shares => shares
  | fuel + 1, room, shares =>
    match neediest? counts shares room with
    | none => shares
    | some s =>
      let share := shares.getD s 0
      fillShares counts fuel (room - share) (shares.setIfInBounds s (2 * share))

/-- The cells of every symbol in a code for the given bytes. -/
def sharesOf (bytes : Bytes) : Array Nat :=
  let counts := countsOf bytes
  let shares := counts.map (firstShare bytes.length)
  fillShares counts (256 * designDepth) (designCells - shares.foldl (· + ·) 0) shares

/-- The weights that describe a code, without the last one. -/
def weightsOf (shares : Array Nat) : List Nat :=
  let least := (shares.toList.filter (0 < ·)).foldl min designCells
  let weights := shares.toList.map fun n => if n = 0 then 0 else (n / least).log2 + 1
  ((weights.reverse.dropWhile (· = 0)).drop 1).reverse

/-! ## Writing weights -/

/-- Half bytes in pairs, the high half first. -/
def pairHalves : List Nat → Bytes
  | [] => []
  | [a] => [UInt8.ofNat (16 * a)]
  | a :: b :: rest => UInt8.ofNat (16 * a + b) :: pairHalves rest

/-- The shares of the weights from zero to eleven in the table with which weights are written. -/
def weightShares : Array Int := #[22, 6, 6, 6, 6, 5, 4, 3, 2, 2, 1, 1]

/-- The description of these shares: four bits of accuracy, and each share in as few bits as the
rest allows. -/
def weightSharesDescription : Bytes := [113, 157, 115, 142, 21, 55, 7]

/-- Weights written with a finite state table, two states taking turns. -/
def codedWeights? (weights : List Nat) : Option Bytes := do
  let steps ← (Table.ofShares 6 weightShares).path? 2 weights
  let bits := (steps.take 2).foldl (fun bits s => pushBits bits 6 s.cell) #[]
  let bits := steps.foldl (fun bits s => pushBits bits s.bits s.value) bits
  let bytes := weightSharesDescription ++ backwardBytes bits
  if bytes.length < 128 ∧ 2 ≤ weights.length then
    return UInt8.ofNat bytes.length :: bytes
  else none

/-- Weights written as half bytes. -/
def plainWeights? (weights : List Nat) : Option Bytes :=
  if weights.length ≤ 128 then some (UInt8.ofNat (weights.length + 127) :: pairHalves weights)
  else none

/-- The shorter of two texts. -/
def shorter (a b : Bytes) : Bytes := if b.length < a.length then b else a

/-- The written form of weights. -/
def describeWeights? (weights : List Nat) : Option Bytes :=
  match plainWeights? weights, codedWeights? weights with
  | some a, some b => some (shorter a b)
  | some a, none | none, some a => some a
  | none, none => none

/-! ## Writing symbols -/

/-- For every symbol the length of its code word, and the word as a number. -/
def PrefixCode.words (code : PrefixCode) : Array (Nat × Nat) :=
  code.entries.zipIdx.foldl
    (fun words ((symbol, bits), i) =>
      words.setIfInBounds symbol.toNat (bits, i >>> (code.depth - bits)))
    (Array.replicate 256 (0, 0))

/-- The stream of bytes written with code words. -/
def writeStream (words : Array (Nat × Nat)) (bytes : Bytes) : Bytes :=
  backwardBytes (bytes.foldl
    (fun bits b =>
      let (width, word) := words.getD b.toNat (0, 0)
      pushBits bits width word)
    #[])

end ShardMesh.Compression.Zstd
