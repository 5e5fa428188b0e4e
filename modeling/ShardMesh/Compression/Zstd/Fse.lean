import ShardMesh.Compression.Zstd.Bits

/-!
# Finite state entropy tables

A distribution gives every symbol a share of a table of 2^accuracy cells; the share -1 stands for
"less than one cell" and gets one cell at the end. Decoding moves from cell to cell: a cell names
a symbol, and how many bits to read to find the next cell.
-/

namespace ShardMesh.Compression.Zstd

/-- A cell of a decoding table. -/
structure Cell where
  /-- The symbol that the cell stands for. -/
  symbol : Nat
  /-- How many bits lead to the next cell. -/
  bits : Nat
  /-- What is added to them. -/
  base : Nat
  deriving DecidableEq, Repr, Inhabited

/-- A decoding table of 2^accuracy cells. -/
structure Table where
  accuracy : Nat
  cells : Array Cell
  deriving DecidableEq, Repr, Inhabited

namespace Table

/-- The table of one symbol, which is decoded without reading anything. -/
def constant (symbol : Nat) : Table := ⟨0, #[⟨symbol, 0, 0⟩]⟩

/-- The cell after `cell` in the walk that spreads symbols, leaving out those above `high`. -/
def nextPlace (size high : Nat) (place : Nat) : (fuel : Nat) → Nat
  | 0 => place
  | fuel + 1 =>
    let place := (place + size / 2 + size / 8 + 3) % size
    if high < place then nextPlace size high place fuel else place

/-- Spreads a row of symbols over the cells. -/
def spread (size high : Nat) : List Nat → Nat → Array Nat → Array Nat
  | [], _, cells => cells
  | s :: rest, place, cells =>
    spread size high rest (nextPlace size high place size) (cells.setIfInBounds place s)

/-- The symbols with a share of -1, in order. -/
def rareSymbols (shares : Array Int) : List Nat :=
  (List.range shares.size).filter fun s => shares.getD s 0 == -1

/-- Every symbol with a positive share, as often as its share says. -/
def commonSymbols (shares : Array Int) : List Nat :=
  (List.range shares.size).flatMap fun s => List.replicate (shares.getD s 0).toNat s

/-- The symbol of every cell. -/
def symbolsOf (size : Nat) (shares : Array Int) : Array Nat :=
  let rare := rareSymbols shares
  let cells := rare.zipIdx.foldl (fun cells (s, i) => cells.setIfInBounds (size - 1 - i) s)
    (Array.replicate size 0)
  spread size (size - 1 - rare.length) (commonSymbols shares) 0 cells

/-- The decoding table of a distribution. -/
def ofShares (accuracy : Nat) (shares : Array Int) : Table :=
  let size := Nat.pow 2 accuracy
  let counters := shares.map fun share => if share = -1 then 1 else share.toNat
  let (cells, _) := (symbolsOf size shares).foldl
    (fun (cells, counters) s =>
      let x := counters.getD s 1
      let bits := accuracy - x.log2
      (cells.push (⟨s, bits, x <<< bits - size⟩ : Cell), counters.setIfInBounds s (x + 1)))
    (#[], counters)
  ⟨accuracy, cells⟩

/-- The cell with a number. -/
def cell (t : Table) (state : Nat) : Cell := t.cells.getD state ⟨0, 0, 0⟩

/-- Reads the number of the first cell. -/
def start (t : Table) (b : BackwardBits) : Nat × BackwardBits := b.read t.accuracy

/-- Reads the way to the next cell. -/
def step (t : Table) (state : Nat) (b : BackwardBits) : Nat × BackwardBits :=
  let c := t.cell state
  let (low, b) := b.read c.bits
  (c.base + low, b)

end Table

/-! ## Writing -/

/-- A step of the way through a table: the cell, and the bits that lead on. -/
structure Step where
  cell : Nat
  /-- How many bits lead on. -/
  bits : Nat
  /-- The bits as a number. -/
  value : Nat
  deriving DecidableEq, Repr, Inhabited

namespace Table

/-- The step from a cell of a symbol to the next cell, if that is known; the last step needs no
bits. -/
def stepTo? (t : Table) (symbol : Nat) (next : Option Nat) : Option Step :=
  (List.range t.cells.size).findSome? fun i =>
    let c := t.cell i
    if c.symbol ≠ symbol then none
    else
      match next with
      | none => some ⟨i, 0, 0⟩
      | some n =>
        if c.base ≤ n ∧ n < c.base + Nat.pow 2 c.bits then some ⟨i, c.bits, n - c.base⟩ else none

/-- The steps through which symbols are decoded, by several states that take turns. -/
def path? (t : Table) (states : Nat) : List Nat → Option (List Step)
  | [] => some []
  | symbol :: rest => do
    let steps ← path? t states rest
    let step ← t.stepTo? symbol (steps[states - 1]?.map (·.cell))
    return step :: steps

end Table

/-! ## Reading a distribution -/

/-- Adds zeros as long as two bits say three more are to come. -/
def readZeros (data : Array UInt8) : (fuel : Nat) → (position : Nat) → Array Int →
    Nat × Array Int
  | 0, position, shares => (position, shares)
  | fuel + 1, position, shares =>
    let more := bitsAt data position 2
    let shares := shares ++ Array.replicate more 0
    if more = 3 then readZeros data fuel (position + 2) shares else (position + 2, shares)

/-- Reads shares until they fill the table: `remaining` is what is left to give, plus one. A share
is written with as few bits as the remaining range allows. -/
def readShares (data : Array UInt8) (maxSymbol : Nat) : (fuel : Nat) →
    (position remaining : Nat) → Array Int → Option (Nat × Array Int)
  | 0, _, _, _ => none
  | fuel + 1, position, remaining, shares =>
    let width := remaining.log2
    let threshold := Nat.pow 2 width
    let unused := 2 * threshold - 1 - remaining
    let low := bitsAt data position width
    let (value, position) :=
      if low < unused then (low, position + width)
      else
        let full := bitsAt data position (width + 1)
        (if threshold ≤ full then full - unused else full, position + width + 1)
    let share : Int := (value : Int) - 1
    let shares := shares.push share
    if remaining ≤ share.natAbs then none
    else
      let remaining := remaining - share.natAbs
      if remaining = 1 then some (position, shares)
      else
        let (position, shares) :=
          if share = 0 then readZeros data (data.size * 4 + 1) position shares
          else (position, shares)
        if maxSymbol < shares.size then none
        else readShares data maxSymbol fuel position remaining shares

/-- Reads a distribution over the symbols up to `maxSymbol`: its table, and the bytes after it. -/
def readTable (maxSymbol maxAccuracy : Nat) (bytes : Bytes) : Option (Table × Bytes) :=
  match bytes with
  | [] => none
  | first :: _ =>
    let accuracy := first.toNat % 16 + 5
    if maxAccuracy < accuracy then none
    else
      -- A description takes at most 16 bits per symbol.
      let data := (bytes.take (2 * maxSymbol + 64)).toArray
      match readShares data maxSymbol (maxSymbol + 1) 4 (Nat.pow 2 accuracy + 1) #[] with
      | none => none
      | some (position, shares) =>
        let used := (position + 7) / 8
        if bytes.length < used then none
        else some (Table.ofShares accuracy shares, bytes.drop used)

end ShardMesh.Compression.Zstd
