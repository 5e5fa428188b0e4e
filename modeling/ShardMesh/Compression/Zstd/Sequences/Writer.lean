import ShardMesh.Compression.Zstd.Sequences

/-!
# Writing the sequences section

Sequences are written with the tables that both sides know. No offset is named as a recent one.
-/

namespace ShardMesh.Compression.Zstd

/-- The code of a value: the last one that does not start above it. -/
def codeOf (codes : Array (Nat × Nat)) (value : Nat) : Nat :=
  (codes.toList.takeWhile fun (base, _) => base ≤ value).length - 1

/-- A value as its code, and the extra bits. -/
structure CodedValue where
  code : Nat
  /-- How many extra bits there are. -/
  bits : Nat
  /-- The extra bits as a number. -/
  extra : Nat
  deriving DecidableEq, Repr, Inhabited

/-- A value of which a table of codes gives the least values and numbers of extra bits. -/
def CodedValue.of (codes : Array (Nat × Nat)) (value : Nat) : CodedValue :=
  let code := codeOf codes value
  let (base, bits) := codes.getD code (0, 0)
  ⟨code, bits, value - base⟩

/-- The value of an offset; the values up to three are taken by recent offsets. -/
def CodedValue.ofOffset (offset : Nat) : CodedValue :=
  let value := offset + 3
  ⟨value.log2, value.log2, value - Nat.pow 2 value.log2⟩

/-- A sequence as its three values. -/
structure CodedSequence where
  literals : CodedValue
  offset : CodedValue
  copy : CodedValue
  deriving DecidableEq, Repr, Inhabited

/-- The sequence of a segment. -/
def CodedSequence.of (s : Segment) : CodedSequence :=
  ⟨.of literalsCodes s.literals.length, .ofOffset s.offset, .of copyCodes s.length⟩

/-- The number of sequences in one, two or three bytes. -/
def writeCount (count : Nat) : Bytes :=
  if count < 128 then [UInt8.ofNat count]
  else if count < 0x7F00 then [UInt8.ofNat (count / 256 + 128), UInt8.ofNat count]
  else 255 :: Bytes.ofNatLE 2 (count - 0x7F00)

/-- The bits of sequences and of the steps through the three tables: for every sequence the extra
bits, then the bits that lead to the next cells. -/
def pushSequences : List CodedSequence → (literals offsets copies : List Step) → Array Bool →
    Array Bool
  | s :: rest, l :: literals, o :: offsets, c :: copies, bits =>
    let bits := pushBits bits s.offset.bits s.offset.extra
    let bits := pushBits bits s.copy.bits s.copy.extra
    let bits := pushBits bits s.literals.bits s.literals.extra
    let bits := pushBits bits l.bits l.value
    let bits := pushBits bits c.bits c.value
    let bits := pushBits bits o.bits o.value
    pushSequences rest literals offsets copies bits
  | _, _, _, _, bits => bits

/-- The cell of the first step. -/
def firstCell (steps : List Step) : Nat := (steps.head?.map (·.cell)).getD 0

/-- The sequences section, if the known tables have all the codes. -/
def writeSequences? (segments : List Segment) : Option Bytes :=
  if segments.isEmpty then some [0]
  else do
    let sequences := segments.map CodedSequence.of
    let literals ← standardLiterals.path? 1 (sequences.map (·.literals.code))
    let offsets ← standardOffsets.path? 1 (sequences.map (·.offset.code))
    let copies ← standardCopies.path? 1 (sequences.map (·.copy.code))
    let bits := pushBits #[] standardLiterals.accuracy (firstCell literals)
    let bits := pushBits bits standardOffsets.accuracy (firstCell offsets)
    let bits := pushBits bits standardCopies.accuracy (firstCell copies)
    return writeCount segments.length ++ 0 ::
      backwardBytes (pushSequences sequences literals offsets copies bits)

end ShardMesh.Compression.Zstd
