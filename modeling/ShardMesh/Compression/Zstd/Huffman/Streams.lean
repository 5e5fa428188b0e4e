import ShardMesh.Compression.Zstd.Huffman

/-!
# Four streams

Many literals are divided among four streams. Long streams are decoded side by side, in rounds, from
the region that they share; when the rounds are over each is decoded to its end. Of a well-formed
region the four streams yield the same one by one.
-/

namespace ShardMesh.Compression.Zstd

/-! ## Symbols in pairs -/

/-- What decoding takes: time for the table, and time for 256 symbols. -/
structure DecodingTime where
  table : Nat
  symbols : Nat
  deriving DecidableEq, Repr, Inhabited

/-- The time for symbols one by one and for symbols in pairs, by how many sixteenths of a byte a
symbol takes. -/
def decodingTimes : Array (DecodingTime × DecodingTime) := #[
  (⟨0, 0⟩, ⟨1, 1⟩), (⟨0, 0⟩, ⟨1, 1⟩), (⟨150, 216⟩, ⟨381, 119⟩), (⟨170, 205⟩, ⟨514, 112⟩),
  (⟨177, 199⟩, ⟨539, 110⟩), (⟨197, 194⟩, ⟨644, 107⟩), (⟨221, 192⟩, ⟨735, 107⟩),
  (⟨256, 189⟩, ⟨881, 106⟩), (⟨359, 188⟩, ⟨1167, 109⟩), (⟨582, 187⟩, ⟨1570, 114⟩),
  (⟨688, 187⟩, ⟨1712, 122⟩), (⟨825, 186⟩, ⟨1965, 136⟩), (⟨976, 185⟩, ⟨2131, 150⟩),
  (⟨1180, 186⟩, ⟨2070, 175⟩), (⟨1377, 185⟩, ⟨1731, 202⟩), (⟨1412, 185⟩, ⟨1695, 202⟩)]

/-- Whether symbols in pairs take less time, with a handicap of a fraction of theirs: `count`
symbols in `size` bytes. -/
def pairsPay (times : Array (DecodingTime × DecodingTime)) (fraction count size : Nat) : Bool :=
  let (single, pair) := times.getD (min 15 (size * 16 / count)) default
  let time (t : DecodingTime) := t.table + t.symbols * (count / 256)
  decide (time pair + time pair / fraction < time single)

/-- The fraction that pairs have for a handicap. -/
def pairHandicap : Nat := 32

/-- The bits that are looked at to decode a pair, unless the code is deeper. -/
def pairBits : Nat := 11

/-- The code for `count` literals in `size` bytes and four streams. -/
def PrefixCode.forMany (code : PrefixCode) (count size : Nat) : PrefixCode :=
  if pairsPay decodingTimes pairHandicap count size then
    { code with pairSpan := some (max code.depth pairBits) }
  else code

/-! ## Rounds -/

/-- A stream within a region that it shares with others: bits that it lacks are taken from what
lies in front of it. -/
structure SharedStream where
  /-- Where the stream starts in the region. -/
  start : Nat
  /-- The region up to the stream's end. -/
  bits : BackwardBits
  /-- How many symbols are to come. -/
  count : Nat
  /-- The symbols so far. -/
  out : Array UInt8
  deriving Repr, Inhabited

namespace SharedStream

/-- The stream between two places of a region. A last byte of zero does not count as a mark. -/
def between (region : Array UInt8) (start stop count : Nat) : SharedStream :=
  let last := region.getD (stop - 1) 0
  ⟨start, ⟨region, 8 * stop - if last = 0 then 0 else 8 - last.toNat.log2⟩, count, #[]⟩

/-- How often a stream decodes what is next in a round. -/
def stepsPerRound : Nat := 5

/-- Decodes what is next, so often. -/
def advance (code : PrefixCode) : (steps : Nat) → SharedStream → SharedStream
  | 0, s => s
  | steps + 1, s =>
    let d := code.next s.bits
    let out := s.out.push d.first
    advance code steps
      (match d.second with
      | some other =>
        { s with bits := s.bits.skip d.bits, count := s.count - 2, out := out.push other }
      | none => { s with bits := s.bits.skip d.bits, count := s.count - 1, out })

/-- Whether there is a round: the first stream has seven bytes for it besides the eight that are
being read, and no stream can come to its end. -/
def hasRound (code : PrefixCode) (streams : List SharedStream) : Bool :=
  let most := stepsPerRound * if code.pairSpan.isSome then 2 else 1
  streams.head?.any (8 * 14 < ·.bits.left) && streams.all (most ≤ ·.count)

/-- Decodes in rounds, at most `fuel` of them. -/
def rounds (code : PrefixCode) : (fuel : Nat) → List SharedStream → List SharedStream
  | 0, streams => streams
  | fuel + 1, streams =>
    if hasRound code streams then rounds code fuel (streams.map (advance code stepsPerRound))
    else streams

/-- The symbols of a stream after the rounds. It must not have been overrun by a whole byte then;
what comes after the rounds is not checked. -/
def finish (code : PrefixCode) (s : SharedStream) : Option (Array UInt8) :=
  if s.bits.left + 8 ≤ 8 * s.start then none
  else some (code.decodeSome s.count s.bits s.out).2

end SharedStream

/-! ## Decoding -/

namespace PrefixCode

/-- The symbols of streams of a region, one after another. -/
def decodeShared (code : PrefixCode) (fuel : Nat) (streams : List SharedStream) :
    Option (Array UInt8) := do
  let parts ← (SharedStream.rounds code fuel streams).mapM (SharedStream.finish code)
  return parts.foldl (· ++ ·) #[]

/-- The `count` symbols of four streams, whose first three lengths stand in front: each of these
streams holds a quarter of the symbols, rounded up. Streams of eight bytes and more are read side
by side from the region that they share. -/
def decodeFourStreams (code : PrefixCode) (count : Nat) (bytes : Bytes) : Option (Array UInt8) :=
  match bytes with
  | a0 :: a1 :: b0 :: b1 :: c0 :: c1 :: streams => do
    let a := a0.toNat + 256 * a1.toNat
    let b := b0.toNat + 256 * b1.toNat
    let c := c0.toNat + 256 * c1.toNat
    let quarter := (count + 3) / 4
    let last := count - 3 * quarter
    if streams.length < 4 ∨ streams.length < a + b + c ∨ count < 6 ∨ count < 3 * quarter then none
    else if code.depth < maxDepth ∧ 8 ≤ a ∧ 8 ≤ b ∧ 8 ≤ c ∧ a + b + c + 8 ≤ streams.length ∧
        0 < last then
      let region := bytes.toArray
      code.decodeShared count [
        .between region 6 (6 + a) quarter,
        .between region (6 + a) (6 + a + b) quarter,
        .between region (6 + a + b) (6 + a + b + c) quarter,
        .between region (6 + a + b + c) region.size last]
    else
      let out ← code.decodeStream quarter (streams.take a) #[]
      let out ← code.decodeStream quarter ((streams.drop a).take b) out
      let out ← code.decodeStream quarter ((streams.drop (a + b)).take c) out
      code.decodeStream last (streams.drop (a + b + c)) out
  | _ => none

end PrefixCode
end ShardMesh.Compression.Zstd
