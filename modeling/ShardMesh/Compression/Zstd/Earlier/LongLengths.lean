import ShardMesh.Compression.Zstd.Earlier.Tables

/-!
# The sequences section of the versions four and five

Codes are the lengths themselves. Lengths beyond the largest code stand in a string of their own,
between the modes of the tables and the tables. One offset is kept besides the last, and the tables
that both sides know are uniform.
-/

namespace ShardMesh.Compression.Zstd.Earlier

/-- The table in which all numbers of so many bits are equally likely. -/
def uniform (bits : Nat) : Table :=
  ⟨bits, ((List.range (Nat.pow 2 bits)).map fun s => (⟨s, bits, 0⟩ : Cell)).toArray⟩

/-- The rules of the versions four and five. -/
def uniformRules : SectionRules :=
  ⟨⟨63, 10, some 256, uniform 6⟩, ⟨31, 9, some 32, uniform 5⟩, ⟨127, 10, some 256, uniform 7⟩⟩

/-- Reads what a length has above its largest code: a byte, or the whole length, which takes two or
three bytes, in version four always three. -/
def readLong (version : Version) (largest : Nat) : Bytes → Nat × Bytes
  | [] => (largest, [])
  | a :: rest =>
    if a < 255 then (largest + a.toNat, rest)
    else if version = .four then
      match rest with
      | b :: c :: d :: rest => (Bytes.toNatLE [b, c, d], rest)
      | _ => (largest, rest)
    else
      match rest with
      | b :: c :: d :: rest =>
        if b % 2 = 1 then (Bytes.toNatLE [b, c, d] / 2, rest)
        else (Bytes.toNatLE [b, c] / 2, d :: rest)
      | [b, c] => (Bytes.toNatLE [b, c] / 2, [])
      | _ => (largest, rest)

/-- The length of a code, and what is left of the string of long lengths: of its bytes the last
never goes away. From an empty string `beyond` is read once. -/
def longLength (version : Version) (largest code : Nat) (beyond : UInt8) (long : Bytes) :
    Nat × Bytes :=
  if code = largest then
    let (length, rest) := readLong version largest (if long.isEmpty then [beyond] else long)
    (length, if rest.isEmpty then [long.getLastD 0] else rest)
  else (code, long)

/-- The least value of an offset code above zero; the largest have no range of their own. -/
def offsetBase (code : Nat) : Nat := if 27 ≤ code then 1 else Nat.pow 2 (code - 1)

/-- The offset of the last sequence, and the one to use where no literals come first. -/
structure LastOffsets where
  last : Nat
  other : Nat
  deriving DecidableEq, Repr, Inhabited

/-- The offset that a code stands for, and the offsets after it. Code zero names the last offset, or
the other one if the code of the literals length is zero. -/
def LastOffsets.resolve (p : LastOffsets) (code extra literalsCode literals : Nat) :
    Nat × LastOffsets :=
  let offset :=
    if code = 0 then (if literalsCode = 0 then p.other else p.last) else offsetBase code + extra
  (offset, ⟨offset, if code ≠ 0 ∨ literals = 0 then p.last else p.other⟩)

/-- The least length of a copy. -/
def leastCopy : Nat := 4

/-- Reads sequences whose long lengths stand in `long`. In version four all bits have to be used
up. -/
def readUniformFrom (version : Version) (t : Tables) (beyond : UInt8) : (count : Nat) → Cells →
    LastOffsets → (long : Bytes) → BackwardBits → Array Sequence → Option (List Sequence)
  | 0, _, _, _, b, found => if version = .four ∧ !b.isDone then none else some found.toList
  | count + 1, cells, last, long, b, found =>
    if b.isOverread then none
    else
      let offsetCode := (t.offsets.cell cells.offset).symbol
      let literalsCode := (t.literals.cell cells.literals).symbol
      let (literals, long) := longLength version 63 literalsCode beyond long
      let (copy, long) := longLength version 127 (t.copies.cell cells.copy).symbol 0 long
      let (cells, extra, b) :=
        if version = .four then
          let (l, b) := t.literals.step cells.literals b
          let (o, b) := t.offsets.step cells.offset b
          let (extra, b) := b.read (offsetCode - 1)
          let (c, b) := t.copies.step cells.copy b
          ((⟨l, o, c⟩ : Cells), extra, b)
        else
          let (extra, b) := b.read (offsetCode - 1)
          let (o, b) := t.offsets.step cells.offset b
          let (l, b) := t.literals.step cells.literals b
          let (c, b) := t.copies.step cells.copy b
          ((⟨l, o, c⟩ : Cells), extra, b)
      let (offset, last) := last.resolve offsetCode extra literalsCode literals
      readUniformFrom version t beyond count cells last long b
        (found.push ⟨literals, offset, copy + leastCopy⟩)

/-- Reads the number of sequences in the versions four and five. -/
def readUniformCount (version : Version) (bytes : Bytes) : Option (Nat × Bytes) :=
  if version = .four then takeNat 2 bytes
  else
    match bytes with
    | a :: b :: rest =>
      if a < 128 then some (a.toNat, b :: rest)
      else some ((a.toNat - 128) * 256 + b.toNat, rest)
    | [a] => if a < 128 then some (a.toNat, []) else none
    | [] => none

/-- Reads the sequences section of the versions four and five. -/
def readUniformSequences (version : Version) (bytes : Bytes) : Option (List Sequence) := do
  let (count, rest) ← readUniformCount version bytes
  if count = 0 ∧ version ≠ .four then return []
  else
    let modes := (rest.headD 0).toNat
    let width := if modes / 2 % 2 = 1 then 3 else 2
    let size := bigEndianBits rest (if width = 3 then 8 else 7) (if width = 3 then 16 else 9)
    let rest := rest.drop width
    if rest.length < size + 3 then none
    else
      let (tables, stream) ← readTablesOf version uniformRules modes none (rest.drop size)
      let b ← BackwardBits.ofBytes? stream
      let (cells, b) := startOf tables b
      let first := if version = .four then 4 else 1
      let beyond := if version = .four then 0 else rest.headD 0
      readUniformFrom version tables beyond count cells ⟨first, first⟩ (rest.take size) b #[]

end ShardMesh.Compression.Zstd.Earlier
