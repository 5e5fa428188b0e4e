import ShardMesh.Compression.Zstd.Earlier.Header

/-!
# The literals section of earlier versions

The literals of a coded block are plain, one byte repeated, or Huffman-coded. The code of an earlier
block is used again in version seven alone, as one stream, and only if it decodes pairs.
-/

namespace ShardMesh.Compression.Zstd.Earlier

/-- How the literals are written. -/
inductive LiteralsForm where
  | plain
  | repeated
  /-- With a prefix code, as one stream or as four. -/
  | coded (single : Bool)
  /-- With the code of an earlier block. -/
  | again
  deriving DecidableEq, Repr

/-- The header of a literals section. -/
structure LiteralsHeader where
  form : LiteralsForm
  /-- The bytes of the header itself. -/
  size : Nat
  /-- How many literals there are. -/
  count : Nat
  /-- How many bytes the coded literals take. -/
  coded : Nat
  deriving DecidableEq, Repr

/-- Reads the header in version four: the form in the low bits, and little-endian numbers. -/
def readFourthLiteralsHeader (bytes : Bytes) : Option LiteralsHeader :=
  let n := Bytes.toNatLE (bytes.take 5)
  let count := n / 4 % Nat.pow 2 22
  match n % 4 with
  | 0 => some ⟨.coded false, 5, n / 4 % Nat.pow 2 19, n / Nat.pow 2 21 % Nat.pow 2 19⟩
  | 1 => some ⟨.plain, 3, count, 0⟩
  | 2 => some ⟨.repeated, 3, count, 0⟩
  | _ => none

/-- Reads the header in later versions: form and width in the high bits, and big-endian numbers. -/
def readLiteralsHeader (bytes : Bytes) : Option LiteralsHeader :=
  match bytes with
  | [] => none
  | a :: _ =>
    let form := a.toNat / 64
    let width := a.toNat / 16 % 4
    if 2 ≤ form then
      let (size, first, bits) :=
        if width < 2 then (1, 3, 5) else if width = 2 then (2, 4, 12) else (3, 4, 20)
      some ⟨if form = 2 then .plain else .repeated, size, bigEndianBits bytes first bits, 0⟩
    else if form = 1 ∧ width ≠ 1 then none
    else
      let (size, bits) := if width < 2 then (3, 10) else if width = 2 then (4, 14) else (5, 18)
      some ⟨if form = 1 then .again else .coded (width = 1), size, bigEndianBits bytes 4 bits,
        bigEndianBits bytes (4 + bits) bits⟩

/-- The first byte that stands for a code whose symbols are all equally long. -/
def firstEven : Nat := 242

/-- The numbers of symbols of codes whose symbols are all equally long, without the last. -/
def evenCodes : Array Nat := #[1, 2, 3, 4, 7, 8, 15, 16, 31, 32, 63, 64, 127, 128]

/-- Decodes weights as before version six: two states take turns until all bits are used up and the
state whose turn it is stands at the first cell, where the other has to stand as well. -/
def decodeWeightsToStart (t : Table) : (fuel : Nat) → (turn other : Nat) → BackwardBits →
    Array Nat → Option (List Nat)
  | 0, turn, other, b, weights =>
    if b.isDone ∧ turn = 0 ∧ other = 0 then some weights.toList else none
  | fuel + 1, turn, other, b, weights =>
    if b.isOverread then none
    else if b.isDone ∧ turn = 0 then if other = 0 then some weights.toList else none
    else
      let (next, rest) := t.step turn b
      decodeWeightsToStart t fuel other next rest (weights.push (t.cell turn).symbol)

/-- The fewest bytes that the description of a table is read from. -/
def leastDescription : Nat := 4

/-- Reads weights written with a finite state table, which may be larger than at present. -/
def readCodedWeightsOf (version : Version) (bytes : Bytes) : Option (List Nat) := do
  if bytes.length < leastDescription then none
  else
    let (table, rest) ← readTable 255 12 bytes
    let b ← BackwardBits.ofBytes? rest
    let (first, b) := table.start b
    let (second, b) := table.start b
    match version with
    | .four | .five => decodeWeightsToStart table maxWeights first second b #[]
    | .six | .seven =>
      if b.isOverread then none else decodeWeights table (maxWeights - 1) first second b #[]

/-- Reads a prefix code. Besides the present forms of weights there is one for codes with equal
lengths. -/
def readCode (version : Version) (bytes : Bytes) : Option (PrefixCode × Bytes) :=
  match bytes with
  | [] => none
  | head :: rest => do
    let head := head.toNat
    if head < 128 then
      if rest.length < head then none
      else
        let code ← PrefixCode.ofWeights? (← readCodedWeightsOf version (rest.take head))
        return (code, rest.drop head)
    else if head < firstEven then readPrefixCode bytes
    else
      let code ← PrefixCode.ofWeights? (List.replicate (evenCodes.getD (head - firstEven) 0) 1)
      return (code, rest)

/-! ## Decoding -/

/-- The time for symbols one by one and for symbols in pairs, by how many sixteenths of a byte a
symbol takes. -/
def earlierTimes : Array (DecodingTime × DecodingTime) := #[
  (⟨0, 0⟩, ⟨1, 1⟩), (⟨0, 0⟩, ⟨1, 1⟩), (⟨38, 130⟩, ⟨1313, 74⟩), (⟨448, 128⟩, ⟨1353, 74⟩),
  (⟨556, 128⟩, ⟨1353, 74⟩), (⟨714, 128⟩, ⟨1418, 74⟩), (⟨883, 128⟩, ⟨1437, 74⟩),
  (⟨897, 128⟩, ⟨1515, 75⟩), (⟨926, 128⟩, ⟨1613, 75⟩), (⟨947, 128⟩, ⟨1729, 77⟩),
  (⟨1107, 128⟩, ⟨2083, 81⟩), (⟨1177, 128⟩, ⟨2379, 87⟩), (⟨1242, 128⟩, ⟨2415, 93⟩),
  (⟨1349, 128⟩, ⟨2644, 106⟩), (⟨1455, 128⟩, ⟨2422, 124⟩), (⟨722, 128⟩, ⟨1891, 145⟩)]

/-- The code for `count` literals in `size` bytes and four streams. -/
def manyOf (version : Version) (code : PrefixCode) (count size : Nat) : PrefixCode :=
  if pairsPay earlierTimes (if version = .seven then 8 else 16) count size then
    { code with pairSpan := some maxDepth }
  else code

/-- Decodes four streams of a quarter of the literals each, whose first three lengths stand in
front. -/
def decodeQuarters (code : PrefixCode) (count : Nat) (bytes : Bytes) : Option Bytes :=
  match bytes with
  | a0 :: a1 :: b0 :: b1 :: c0 :: c1 :: streams => do
    let a := Bytes.toNatLE [a0, a1]
    let b := Bytes.toNatLE [b0, b1]
    let c := Bytes.toNatLE [c0, c1]
    let quarter := (count + 3) / 4
    let out ← code.decodeStream quarter (streams.take a) #[]
    let out ← code.decodeStream quarter ((streams.drop a).take b) out
    let out ← code.decodeStream quarter ((streams.drop (a + b)).take c) out
    let out ← code.decodeStream (count - 3 * quarter) (streams.drop (a + b + c)) out
    return out.toList.take count
  | _ => none

/-- Decodes literals with a code of their own: the literals, and the code. Before version seven four
streams could also stand for plain or repeated bytes. -/
def decodeLiteralsOf (version : Version) (single : Bool) (count : Nat) (bytes : Bytes) :
    Option (Bytes × Option PrefixCode) :=
  if !single && version != .seven && bytes.length == count then some (bytes, none)
  else if !single && version != .seven && bytes.length == 1 then
    some (List.replicate count (bytes.headD 0), none)
  else if !single && (count ≤ bytes.length || bytes.length ≤ 1) then none
  else do
    let (code, streams) ← readCode version bytes
    let code := if single then code else manyOf version code count bytes.length
    let literals ←
      if single then (code.decodeStream count streams #[]).map (·.toList)
      else decodeQuarters code count streams
    return (literals, some code)

/-- Decodes literals with the code of an earlier block. -/
def decodeAgain (version : Version) (code : PrefixCode) (count : Nat) (bytes : Bytes) :
    Option Bytes :=
  if version = .seven ∧ code.pairSpan.isSome then
    (code.decodeStream count bytes #[]).map (·.toList)
  else none

/-- The least size of a coded block. -/
def Version.leastBlock : Version → Nat
  | .four => 11
  | _ => 3

/-- Plain literals of a section. In version four they are counted from the section's own beginning
if fewer than eight bytes come after them. -/
def plainLiteralsOf (version : Version) (h : LiteralsHeader) (bytes : Bytes) : Bytes :=
  if version = .four ∧ bytes.length < h.size + h.count + 8 then bytes.take h.count
  else (bytes.drop h.size).take h.count

/-- Reads the literals section, given the code of an earlier block: the literals, the code for the
next block, and the bytes after the section. -/
def readLiteralsOf (version : Version) (previous : Option PrefixCode) (bytes : Bytes) :
    Option (Bytes × Option PrefixCode × Bytes) := do
  if bytes.length < version.leastBlock then none
  else
    let h ← if version = .four then readFourthLiteralsHeader bytes else readLiteralsHeader bytes
    let rest := bytes.drop h.size
    match h.form with
    | .plain =>
      if rest.length < h.count then none
      else return (plainLiteralsOf version h bytes, previous, rest.drop h.count)
    | .repeated =>
      match rest with
      | b :: rest =>
        if maxBlock < h.count then none else return (List.replicate h.count b, previous, rest)
      | [] => none
    | .coded single =>
      if maxBlock < h.count ∨ rest.length < h.coded ∨ bytes.length < 5 then none
      else
        let (literals, code) ← decodeLiteralsOf version single h.count (rest.take h.coded)
        return (literals, code, rest.drop h.coded)
    | .again =>
      if rest.length < h.coded then none
      else
        return (← decodeAgain version (← previous) h.count (rest.take h.coded), previous,
          rest.drop h.coded)

end ShardMesh.Compression.Zstd.Earlier
