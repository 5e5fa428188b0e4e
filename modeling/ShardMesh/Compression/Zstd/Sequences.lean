import ShardMesh.Compression.Zstd.Fse
import ShardMesh.Compression.Zstd.Window

/-!
# The sequences section

After its literals a compressed block lists sequences: how many literals come next, how far back a
copy starts and how long it is. The three numbers are written as codes, each drawn from a table of
its own, with extra bits for the exact value. Three recent offsets have short codes.
-/

namespace ShardMesh.Compression.Zstd

/-! ## Codes and their values -/

/-- For every code of a literals length its least value and its number of extra bits. -/
def literalsCodes : Array (Nat × Nat) := #[
  (0, 0), (1, 0), (2, 0), (3, 0), (4, 0), (5, 0), (6, 0), (7, 0), (8, 0), (9, 0), (10, 0), (11, 0),
  (12, 0), (13, 0), (14, 0), (15, 0), (16, 1), (18, 1), (20, 1), (22, 1), (24, 2), (28, 2), (32, 3),
  (40, 3), (48, 4), (64, 6), (128, 7), (256, 8), (512, 9), (1024, 10), (2048, 11), (4096, 12),
  (8192, 13), (16384, 14), (32768, 15), (65536, 16)]

/-- For every code of a copy length its least value and its number of extra bits. -/
def copyCodes : Array (Nat × Nat) := #[
  (3, 0), (4, 0), (5, 0), (6, 0), (7, 0), (8, 0), (9, 0), (10, 0), (11, 0), (12, 0), (13, 0),
  (14, 0), (15, 0), (16, 0), (17, 0), (18, 0), (19, 0), (20, 0), (21, 0), (22, 0), (23, 0), (24, 0),
  (25, 0), (26, 0), (27, 0), (28, 0), (29, 0), (30, 0), (31, 0), (32, 0), (33, 0), (34, 0), (35, 1),
  (37, 1), (39, 1), (41, 1), (43, 2), (47, 2), (51, 3), (59, 3), (67, 4), (83, 4), (99, 5),
  (131, 7), (259, 8), (515, 9), (1027, 10), (2051, 11), (4099, 12), (8195, 13), (16387, 14),
  (32771, 15), (65539, 16)]

/-- The largest code of a literals length, a copy length and an offset. -/
def maxLiteralsCode : Nat := 35
def maxCopyCode : Nat := 52
def maxOffsetCode : Nat := 31

/-- The table of literals lengths that both sides know. -/
def standardLiterals : Table := Table.ofShares 6 #[
  4, 3, 2, 2, 2, 2, 2, 2, 2, 2, 2, 2, 2, 1, 1, 1, 2, 2, 2, 2, 2, 2, 2, 2, 2, 3, 2, 1, 1, 1, 1, 1,
  -1, -1, -1, -1]

/-- The table of copy lengths that both sides know. -/
def standardCopies : Table := Table.ofShares 6 #[
  1, 4, 3, 2, 2, 2, 2, 2, 2, 1, 1, 1, 1, 1, 1, 1, 1, 1, 1, 1, 1, 1, 1, 1, 1, 1, 1, 1, 1, 1, 1, 1,
  1, 1, 1, 1, 1, 1, 1, 1, 1, 1, 1, 1, 1, 1, -1, -1, -1, -1, -1, -1, -1]

/-- The table of offsets that both sides know. -/
def standardOffsets : Table := Table.ofShares 5 #[
  1, 1, 1, 1, 1, 1, 2, 2, 2, 1, 1, 1, 1, 1, 1, 1, 1, 1, 1, 1, 1, 1, 1, 1, -1, -1, -1, -1, -1]

/-- The three tables of a block. -/
structure Tables where
  literals : Table
  offsets : Table
  copies : Table
  deriving Repr, Inhabited

/-! ## Recent offsets -/

/-- The three offsets used last, the latest first. -/
structure Recent where
  (first second third : Nat)
  deriving DecidableEq, Repr, Inhabited

/-- What a frame starts with. -/
def Recent.initial : Recent := ⟨1, 4, 8⟩

/-- The offset that a value stands for, and the recent ones after it. Values above three are
offsets themselves; the others name a recent one, shifted by one place when no literals come
first, where the last choice is the latest offset less one. -/
def Recent.resolve (r : Recent) (value : Nat) (noLiterals : Bool) : Nat × Recent :=
  if 3 < value then (value - 3, ⟨value - 3, r.first, r.second⟩)
  else
    match value + (if noLiterals then 1 else 0) with
    | 1 => (r.first, r)
    | 2 => (r.second, ⟨r.second, r.first, r.third⟩)
    | 3 => (r.third, ⟨r.third, r.first, r.second⟩)
    | _ => (r.first - 1, ⟨r.first - 1, r.first, r.second⟩)

/-! ## Reading -/

/-- A sequence as written: its literals are taken from the block's. -/
structure Sequence where
  literals : Nat
  offset : Nat
  length : Nat
  deriving DecidableEq, Repr, Inhabited

/-- Reads `count` sequences: for each the extra bits of offset, copy and literals, then, unless it
is the last, the ways to the next cells. All bits have to be used up. -/
def readSequencesFrom (t : Tables) : (count : Nat) → (l o c : Nat) → Recent → BackwardBits →
    Array Sequence → Option (List Sequence × Recent)
  | 0, _, _, _, recent, b, found => if b.isDone then some (found.toList, recent) else none
  | count + 1, l, o, c, recent, b, found =>
    let offsetCode := (t.offsets.cell o).symbol
    let (copyBase, copyBits) := copyCodes.getD (t.copies.cell c).symbol (0, 0)
    let (literalsBase, literalsBits) := literalsCodes.getD (t.literals.cell l).symbol (0, 0)
    let (offsetExtra, b) := b.read offsetCode
    let (copyExtra, b) := b.read copyBits
    let (literalsExtra, b) := b.read literalsBits
    let literals := literalsBase + literalsExtra
    let (offset, recent) := recent.resolve (Nat.pow 2 offsetCode + offsetExtra) (literals = 0)
    let found := found.push ⟨literals, offset, copyBase + copyExtra⟩
    if count = 0 then readSequencesFrom t 0 l o c recent b found
    else
      let (l, b) := t.literals.step l b
      let (c, b) := t.copies.step c b
      let (o, b) := t.offsets.step o b
      readSequencesFrom t count l o c recent b found

/-- Reads the number of sequences: one, two or three bytes. -/
def readCount : Bytes → Option (Nat × Bytes)
  | [] => none
  | a :: rest =>
    if a < 128 then some (a.toNat, rest)
    else if a = 255 then
      match rest with
      | b :: c :: rest => some (b.toNat + 256 * c.toNat + 0x7F00, rest)
      | _ => none
    else
      match rest with
      | b :: rest => some ((a.toNat - 128) * 256 + b.toNat, rest)
      | [] => none

/-- Reads one table as its mode says: the known one, one symbol, a description, or the table of an
earlier block. -/
def readTableAs (mode maxSymbol maxAccuracy : Nat) (standard : Table) (previous : Option Table)
    (bytes : Bytes) : Option (Table × Bytes) :=
  match mode with
  | 0 => some (standard, bytes)
  | 1 =>
    match bytes with
    | symbol :: rest =>
      if maxSymbol < symbol.toNat then none else some (Table.constant symbol.toNat, rest)
    | [] => none
  | 2 => readTable maxSymbol maxAccuracy bytes
  | _ => previous.map (·, bytes)

/-- What the sequences section of a block yields. -/
structure SequencesSection where
  sequences : List Sequence
  recent : Recent
  /-- The tables for the next block to repeat. -/
  tables : Option Tables
  deriving Repr

/-- Reads the sequences section, which takes all of the given bytes. -/
def readSequences (previous : Option Tables) (recent : Recent) (bytes : Bytes) :
    Option SequencesSection := do
  let (count, rest) ← readCount bytes
  if count = 0 then
    if rest.isEmpty then some ⟨[], recent, previous⟩ else none
  else
    match rest with
    | [] => none
    | modes :: rest =>
      let modes := modes.toNat
      if modes % 4 ≠ 0 then none
      else
        let (literals, rest) ← readTableAs (modes / 64) maxLiteralsCode 9 standardLiterals
          (previous.map (·.literals)) rest
        let (offsets, rest) ← readTableAs (modes / 16 % 4) maxOffsetCode 8 standardOffsets
          (previous.map (·.offsets)) rest
        let (copies, rest) ← readTableAs (modes / 4 % 4) maxCopyCode 9 standardCopies
          (previous.map (·.copies)) rest
        let tables : Tables := ⟨literals, offsets, copies⟩
        let b ← BackwardBits.ofBytes? rest
        let (l, b) := literals.start b
        let (o, b) := offsets.start b
        let (c, b) := copies.start b
        let (sequences, recent) ← readSequencesFrom tables count l o c recent b #[]
        return ⟨sequences, recent, some tables⟩

/-! ## Executing -/

/-- Appends what the sequences describe and then the remaining literals. A copy has to start within
reach, and at most `limit` bytes may be appended. -/
def execute : (limit : Nat) → List Sequence → Bytes → Window → Option Window
  | limit, [], literals, w => if limit < literals.length then none else some (w.append literals)
  | limit, s :: rest, literals, w =>
    let mine := literals.take s.literals
    if mine.length < s.literals ∨ limit < s.literals + s.length then none
    else
      let w := w.append mine
      if s.offset = 0 ∨ w.reach < s.offset then none
      else
        execute (limit - (s.literals + s.length)) rest (literals.drop s.literals)
          (w.copy s.offset s.length)

end ShardMesh.Compression.Zstd
