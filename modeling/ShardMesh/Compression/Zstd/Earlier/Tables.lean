import ShardMesh.Compression.Zstd.Earlier.Literals

/-!
# The tables of earlier versions

A sequences section names its three tables as the present one does, but the ways to give them are
numbered otherwise, and what a table may be depends on the version.
-/

namespace ShardMesh.Compression.Zstd.Earlier

/-- What a table may be. -/
structure TableRules where
  /-- The largest symbol of a described table. -/
  maxSymbol : Nat
  /-- The most cells of a described table, as a power of two. -/
  maxAccuracy : Nat
  /-- How many symbols a constant is reduced to; without it none beyond the largest is taken. -/
  constants : Option Nat
  /-- The table that both sides know. -/
  standard : Table
  deriving Repr, Inhabited

/-- How a table is given. -/
inductive TableForm where
  | known
  | constant
  | described
  | repeated
  deriving DecidableEq, Repr

/-- The form that two bits name. -/
def TableForm.of (version : Version) (mode : Nat) : TableForm :=
  if version = .four then
    match mode with
    | 1 => .known
    | 2 => .constant
    | _ => .described
  else
    match mode with
    | 0 => .known
    | 1 => .constant
    | 2 => .repeated
    | _ => .described

/-- Reads a table. -/
def readTableOf (rules : TableRules) (form : TableForm) (previous : Option Table) (bytes : Bytes) :
    Option (Table × Bytes) :=
  match form with
  | .known => some (rules.standard, bytes)
  | .constant =>
    match bytes with
    | symbol :: rest =>
      match rules.constants with
      | some count => some (Table.constant (symbol.toNat % count), rest)
      | none =>
        if rules.maxSymbol < symbol.toNat then none else some (Table.constant symbol.toNat, rest)
    | [] => none
  | .described =>
    if bytes.length < leastDescription then none
    else readTable rules.maxSymbol rules.maxAccuracy bytes
  | .repeated => previous.map (·, bytes)

/-- The rules for literals lengths, offsets and copy lengths. -/
structure SectionRules where
  literals : TableRules
  offsets : TableRules
  copies : TableRules
  deriving Repr, Inhabited

/-- Reads the three tables as the bits of a byte say. -/
def readTablesOf (version : Version) (rules : SectionRules) (modes : Nat) (previous : Option Tables)
    (bytes : Bytes) : Option (Tables × Bytes) := do
  let form (shift : Nat) := TableForm.of version (modes / shift % 4)
  let (literals, rest) ←
    readTableOf rules.literals (form 64) (previous.map (·.literals)) bytes
  let (offsets, rest) ← readTableOf rules.offsets (form 16) (previous.map (·.offsets)) rest
  let (copies, rest) ← readTableOf rules.copies (form 4) (previous.map (·.copies)) rest
  return (⟨literals, offsets, copies⟩, rest)

/-- The numbers of the three cells at which decoding is. -/
structure Cells where
  literals : Nat
  offset : Nat
  copy : Nat
  deriving DecidableEq, Repr, Inhabited

/-- Reads where decoding starts. -/
def startOf (t : Tables) (b : BackwardBits) : Cells × BackwardBits :=
  let (literals, b) := t.literals.start b
  let (offset, b) := t.offsets.start b
  let (copy, b) := t.copies.start b
  (⟨literals, offset, copy⟩, b)

end ShardMesh.Compression.Zstd.Earlier
