import ShardMesh.Compression.Zstd.Earlier.Tables

/-!
# The sequences section of the versions six and seven

Lengths and offsets are written as in the present format; the choice among recent offsets differs,
and the bits need not be used up.
-/

namespace ShardMesh.Compression.Zstd.Earlier

/-- The rules of the versions six and seven. -/
def standardRules : SectionRules :=
  ⟨⟨35, 9, none, standardLiterals⟩, ⟨28, 8, none, standardOffsets⟩, ⟨52, 9, none, standardCopies⟩⟩

/-- The offset that a value stands for, and the recent ones after it. Without literals in front the
first two change places. -/
def resolve (r : Recent) (value : Nat) (noLiterals : Bool) : Nat × Recent :=
  let value := if noLiterals ∧ value < 3 then 3 - value else value
  match value with
  | 1 => (r.first, r)
  | 2 => (r.second, ⟨r.second, r.first, r.third⟩)
  | 3 => (r.third, ⟨r.third, r.first, r.second⟩)
  | _ => (value - 3, ⟨value - 3, r.first, r.second⟩)

/-- The value of an offset code. The largest codes of version six have no range of their own. -/
def offsetValue (version : Version) (code extra : Nat) : Nat :=
  (if version = .six ∧ 27 ≤ code then 2 else Nat.pow 2 code) + extra

/-- Reads sequences whose lengths have extra bits. Not all bits need be used up, and only those of
the last sequence may go beyond what there is. -/
def readSequencesFrom (version : Version) (t : Tables) : (count : Nat) → Cells → Recent →
    BackwardBits → Array Sequence → Option (List Sequence × Recent)
  | 0, _, recent, _, found => some (found.toList, recent)
  | count + 1, cells, recent, b, found =>
    if b.isOverread then none
    else
      let offsetCode := (t.offsets.cell cells.offset).symbol
      let literalsCode := (t.literals.cell cells.literals).symbol
      let (copyBase, copyBits) := copyCodes.getD (t.copies.cell cells.copy).symbol (0, 0)
      let (literalsBase, literalsBits) := literalsCodes.getD literalsCode (0, 0)
      let (offsetExtra, b) := b.read offsetCode
      let (copyExtra, b) := b.read copyBits
      let (literalsExtra, b) := b.read literalsBits
      let (offset, recent) :=
        resolve recent (offsetValue version offsetCode offsetExtra) (literalsCode = 0)
      let found := found.push
        ⟨literalsBase + literalsExtra, offset, copyBase + copyExtra⟩
      let (literals, b) := t.literals.step cells.literals b
      let (copy, b) := t.copies.step cells.copy b
      let (offset, b) := t.offsets.step cells.offset b
      readSequencesFrom version t count ⟨literals, offset, copy⟩ recent b found

/-! ## The section -/

/-- What the sequences section of a block yields. -/
structure Sequences where
  sequences : List Sequence
  recent : Recent
  /-- The tables for the next block to repeat. -/
  tables : Option Tables
  deriving Repr

/-- Reads the sequences section of the versions six and seven. Only version seven keeps tables and
recent offsets for the next block. -/
def readSequencesOf (version : Version) (previous : Option Tables) (recent : Recent)
    (bytes : Bytes) : Option Sequences := do
  let (count, rest) ← readCount bytes
  if count = 0 then return ⟨[], recent, previous⟩
  else
    match rest with
    | [] => none
    | modes :: rest =>
      if rest.length < 3 then none
      else
        let (tables, rest) ← readTablesOf version standardRules modes.toNat previous rest
        let b ← BackwardBits.ofBytes? rest
        let (cells, b) := startOf tables b
        let first := if version = .seven then recent else ⟨1, 1, 1⟩
        let (sequences, after) ← readSequencesFrom version tables count cells first b #[]
        return ⟨sequences, after, if version = .seven then some tables else none⟩

end ShardMesh.Compression.Zstd.Earlier
