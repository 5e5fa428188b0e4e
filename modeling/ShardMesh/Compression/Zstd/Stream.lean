import ShardMesh.Compression.Zstd.Earlier.Frame

/-!
# Zstandard streams

Compressed data is any number of frames, among which frames of earlier versions and frames to skip
may stand.
-/

namespace ShardMesh.Compression.Zstd

/-- Whether a number starts a frame to skip. -/
def isSkippable (number : Nat) : Bool := number / 16 == 0x184D2A5

/-- What frames hand on to later ones. -/
structure Stream where
  course : Course
  buffers : Buffers := {}
  /-- The earlier version that was met last, and the buffers for it. -/
  earlier : Option (Earlier.Version × Buffers) := none
  /-- The data of all frames so far. -/
  out : Array UInt8 := #[]
  deriving Repr, Inhabited

namespace Stream

/-- The size of a frame that can be decoded at once: its data fits into the present portion, and all
of the frame is at hand. -/
def atOnce? (s : Stream) (h : Header) (fuel : Nat) (rest : Bytes) : Option Nat := do
  if (← h.contentSize) ≤ s.course.receiver.room then
    let size := h.size + (← blocksSize fuel rest) + h.checksumSize
    if size ≤ s.course.atHand then some size else none
  else none

/-- Decodes a frame after its magic number, and gives the bytes after it. -/
def readFrame (s : Stream) (fuel : Nat) (bytes : Bytes) : Option (Stream × Bytes) := do
  let (h, rest) ← readHeader bytes
  match s.atOnce? h fuel rest with
  | some size =>
    let (data, rest) ← readAtOnce h s.course.receiver.room fuel {} rest
    let course := ((s.course.deliver data.size).consume size).pause
    return ({ s with course, out := s.out ++ data }, rest)
  | none =>
    if maxWindow < h.window then none
    else
      let buffers := s.buffers.fit h.buffers
      let (data, course, rest) ←
        readPieces h (h.ring buffers) fuel {} (s.course.consume h.size) rest
      return ({ s with course, buffers, out := s.out ++ data }, rest)

/-- Decodes a frame of an earlier version after its magic number. The start of its header has to be
at hand. The buffers are those of the frames before it if these had the same version. -/
def readEarlier (s : Stream) (version : Earlier.Version) (fuel : Nat) (bytes : Bytes) :
    Option (Stream × Bytes) := do
  let (h, rest) ← Earlier.readHeaderOf version bytes
  if s.course.atHand < Earlier.leastHeader then none
  else
    let kept : Buffers :=
      match s.earlier with
      | some (last, buffers) => if last = version then buffers else {}
      | none => {}
    let buffers := h.fit kept
    let (data, course, rest) ←
      Earlier.readBlocks h buffers fuel {} (s.course.consume h.size) rest
    return ({ s with course, earlier := some (version, buffers), out := s.out ++ data }, rest)

/-- Decodes frames one after another, at most `fuel` of them. -/
def readFrames : (fuel : Nat) → Stream → Bytes → Option Stream
  | 0, _, _ => none
  | fuel + 1, s, bytes =>
    if bytes.isEmpty then some s
    else do
      let (number, rest) ← takeNat 4 bytes
      if isSkippable number then
        let (size, rest) ← takeNat 4 rest
        let data := rest.take size
        if data.length < size then none
        else readFrames fuel { s with course := s.course.consume (8 + size) } (rest.drop size)
      else
        let (s, rest) ←
          if number = magic then s.readFrame (fuel + 1) rest
          else do s.readEarlier (← Earlier.Version.ofMagic? number) (fuel + 1) rest
        if s.course.receiver.isOver then none else readFrames fuel s rest

end Stream

/-- The data that compressed bytes stand for, if it has at most `limit` bytes. -/
def decompress (limit : Nat) (bytes : Bytes) : Option Bytes :=
  if bytes.isEmpty then none
  else
    match Stream.readFrames (bytes.length + 1) { course := { receiver := { limit } } } bytes with
    | some s => if limit < s.out.size then none else some s.out.toList
    | none => none

/-- The bytes stand for the data: whoever is ready for enough of it gets it. -/
def StandsFor (bytes data : Bytes) : Prop :=
  ∃ least, ∀ limit, least ≤ limit → decompress limit bytes = some data

end ShardMesh.Compression.Zstd
