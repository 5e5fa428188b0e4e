import ShardMesh.Compression.Zstd.Stream
import ShardMesh.Proofs.Compression.Segment

/-!
# Counting what is decoded

A stream is any number of frames, and no frame says how long all of them are. What bounds the data is
that the reader counts it while it is decoded. The count is exact up to one byte more than is wanted
(`Receiver.Sound.deliver`), blocks only append, and whatever comes of a block is counted. So the count
is that of all frames together (`Counts`), and data that is longer than the limit is never complete
(`Stream.size_le_of_readFrames`).
-/

namespace ShardMesh.Compression.Zstd

/-! ## The receiver -/

namespace Receiver

/-- All bytes that were taken. -/
def total (r : Receiver) : Nat := r.taken + r.portion

/-- A reader in order: its buffer has free space, its portions do not shrink to nothing, and the present
    one is no longer than there is room for it. -/
structure Sound (r : Receiver) : Prop where
  portion : r.portion ≤ r.room
  wanted : r.taken ≤ r.limit + 1
  free : r.capacity = 0 ∨ r.taken < r.capacity
  most : 0 < r.most

theorem sound_initial (limit : Nat) : Sound { limit } :=
  ⟨Nat.zero_le _, Nat.zero_le _, .inl rfl, by change 0 < 8192; decide⟩

theorem lt_grow (capacity taken : Nat) : taken < grow capacity taken := by
  unfold grow probe
  split <;> omega

theorem room_le (r : Receiver) : r.room ≤ r.limit + 1 - r.taken := Nat.min_le_right ..

/-- There is no room when one byte more than is wanted has been taken, and only then. -/
theorem Sound.room_eq_zero {r : Receiver} (hr : r.Sound) : r.room = 0 ↔ r.taken = r.limit + 1 := by
  have hspan : 0 < r.span := by
    have hmost := hr.most
    unfold span
    split
    · decide
    · rename_i hcapacity
      have hfree := hr.free.resolve_left hcapacity
      omega
  have hwanted := hr.wanted
  unfold room
  omega

/-- Ending a portion takes what is in it. -/
theorem Sound.close {r : Receiver} (hr : r.Sound) :
    r.close.Sound ∧ r.close.limit = r.limit ∧ r.close.portion = 0 ∧ r.close.taken = r.total := by
  have hroom := r.room_le
  have hportion := hr.portion
  have hwanted := hr.wanted
  have hmost := hr.most
  unfold Receiver.close total
  split
  · rename_i hempty
    exact ⟨hr, rfl, hempty, by rw [hempty, Nat.add_zero]⟩
  · refine ⟨⟨Nat.zero_le _, ?_, .inr (lt_grow ..), ?_⟩, rfl, rfl, rfl⟩
    · dsimp only
      omega
    · dsimp only
      split <;> omega

/-- What is in hand is taken up to one byte more than is wanted. -/
theorem Sound.drain {r : Receiver} (hr : r.Sound) (hempty : r.portion = 0) {fuel count : Nat}
    (hfuel : count ≤ fuel) :
    (Receiver.drain fuel r count).Sound ∧ (Receiver.drain fuel r count).limit = r.limit ∧
      (Receiver.drain fuel r count).total = min (r.total + count) (r.limit + 1) := by
  induction fuel generalizing r count with
  | zero =>
    have hwanted := hr.wanted
    refine ⟨hr, rfl, ?_⟩
    simp only [Receiver.drain, total, hempty]
    omega
  | succ fuel ih =>
    have hwanted := hr.wanted
    have hroom := hr.room_eq_zero
    have hle := r.room_le
    unfold Receiver.drain
    split
    · rename_i hstop
      -- nothing is in hand any more, or one byte more than is wanted was taken before
      refine ⟨hr, rfl, ?_⟩
      simp only [total, hempty]
      omega
    · rename_i hgo
      -- a portion takes a byte or more, so the fuel is enough for the rest
      have hportion : Sound { r with portion := min count r.room } :=
        ⟨Nat.min_le_right .., hr.wanted, hr.free, hr.most⟩
      obtain ⟨hsound, hlimit, hclosed, htaken⟩ := hportion.close
      dsimp only at hsound hlimit hclosed htaken ⊢
      have hfewer : count - min count r.room ≤ fuel := by omega
      obtain ⟨hrest, hlimit', htotal⟩ := ih hsound hclosed hfewer
      refine ⟨hrest, hlimit'.trans hlimit, ?_⟩
      rw [htotal, hlimit]
      simp only [total, hclosed, htaken, hempty]
      omega

/-- Bytes are counted up to one more than is wanted. -/
theorem Sound.deliver {r : Receiver} (hr : r.Sound) (count : Nat) :
    (r.deliver count).Sound ∧ (r.deliver count).limit = r.limit ∧
      (r.deliver count).total = min (r.total + count) (r.limit + 1) := by
  have hle := r.room_le
  have hroom := hr.portion
  have hwanted := hr.wanted
  unfold Receiver.deliver
  dsimp only
  split
  · rename_i hfits
    refine ⟨⟨?_, hr.wanted, hr.free, hr.most⟩, rfl, ?_⟩
    · change r.portion + count ≤ r.room
      omega
    · simp only [total]
      omega
  · rename_i hlonger
    have hfull : Sound { r with portion := r.portion + (r.room - r.portion) } := by
      refine ⟨?_, hr.wanted, hr.free, hr.most⟩
      change r.portion + (r.room - r.portion) ≤ r.room
      omega
    obtain ⟨hsound, hlimit, hclosed, htaken⟩ := hfull.close
    obtain ⟨hrest, hlimit', htotal⟩ :=
      hsound.drain hclosed (Nat.sub_le count (r.room - r.portion))
    refine ⟨hrest, hlimit'.trans hlimit, ?_⟩
    rw [htotal, hlimit]
    simp only [total, hclosed, htaken]
    omega

end Receiver

/-! ## The course -/

/-- The reader has counted so many bytes, if these are not more than are wanted, and else one more than
    are wanted. -/
structure Counts (c : Course) (limit size : Nat) : Prop where
  sound : c.receiver.Sound
  wanted : c.receiver.limit = limit
  total : c.receiver.total = min size (limit + 1)

namespace Counts

variable {c : Course} {limit size : Nat}

/-- Ending a portion does not change the count. -/
theorem close (hc : Counts c limit size) {next : Course} (h : next.receiver = c.receiver.close) :
    Counts next limit size := by
  obtain ⟨hsound, hlimit, hportion, htaken⟩ := hc.sound.close
  refine ⟨h ▸ hsound, ?_, ?_⟩
  · rw [h, hlimit, hc.wanted]
  · rw [h, Receiver.total, hportion, htaken, Nat.add_zero, hc.total]

theorem consume (hc : Counts c limit size) (count : Nat) : Counts (c.consume count) limit size := by
  by_cases h : c.position / chunkSize < (c.position + count) / chunkSize
  · exact hc.close (if_pos h)
  · have hsame : (c.consume count).receiver = c.receiver := if_neg h
    exact ⟨hsame ▸ hc.sound, hsame ▸ hc.wanted, hsame ▸ hc.total⟩

theorem pause (hc : Counts c limit size) : Counts c.pause limit size := hc.close rfl

theorem deliver (hc : Counts c limit size) (count : Nat) :
    Counts (c.deliver count) limit (size + count) := by
  obtain ⟨hsound, hlimit, htotal⟩ := hc.sound.deliver count
  refine ⟨hsound, hlimit.trans hc.wanted, ?_⟩
  have hbefore := hc.total
  have hwanted := hc.wanted
  change (c.receiver.deliver count).total = _
  rw [htotal]
  omega

/-- Of what was appended the last byte of input is consumed when it has been delivered. -/
theorem append {before old new : Nat} (hc : Counts c limit (before + old)) (hle : old ≤ new)
    (count : Nat) :
    Counts (((c.consume count).deliver (new - old)).consume 1) limit (before + new) := by
  have hcounts := ((hc.consume count).deliver (new - old)).consume 1
  have hsize : before + old + (new - old) = before + new := by omega
  rwa [hsize] at hcounts

/-- More came than was wanted exactly if more was decoded. -/
theorem isOver_iff (hc : Counts c limit size) : c.receiver.isOver = true ↔ limit < size := by
  have htotal := hc.total
  have hwanted := hc.wanted
  rw [Receiver.isOver, decide_eq_true_iff, ← Receiver.total]
  omega

end Counts

/-! ## Blocks -/

namespace Window

theorem size_append (w : Window) (bytes : Bytes) :
    (w.append bytes).out.size = w.out.size + bytes.length := size_appendList ..

theorem size_le_append (w : Window) (bytes : Bytes) : w.out.size ≤ (w.append bytes).out.size :=
  Nat.le_trans (Nat.le_add_right ..) (Nat.le_of_eq (w.size_append bytes).symm)

theorem size_copyPrevious (run previous fresh count position : Nat) (out : Array UInt8) :
    (copyPrevious run previous fresh count position out).size = out.size + count := by
  induction count generalizing position out with
  | zero => rfl
  | succ count ih =>
    rw [copyPrevious, ih, Array.size_push]
    omega

theorem size_copy (w : Window) (offset length : Nat) :
    (w.copy offset length).out.size = w.out.size + length := by
  unfold copy
  split
  · exact size_copyBack ..
  · simp only [size_copyBack, size_copyPrevious]
    omega

end Window

/-- The bytes that sequences copy. -/
def copied : List Sequence → Nat
  | [] => 0
  | s :: sequences => s.length + copied sequences

/-- Sequences append the literals and their copies. -/
theorem size_execute {limit : Nat} {sequences : List Sequence} {literals : Bytes} {w next : Window}
    (h : execute limit sequences literals w = some next) :
    next.out.size = w.out.size + literals.length + copied sequences := by
  induction sequences generalizing limit literals w with
  | nil =>
    rw [execute] at h
    split at h
    · cases h
    · cases h
      exact w.size_append literals
  | cons s sequences ih =>
    rw [execute] at h
    dsimp only at h
    split at h
    · cases h
    · rename_i hlong
      split at h
      · cases h
      · have hrest := ih h
        rw [Window.size_copy, Window.size_append] at hrest
        rw [hrest, List.length_drop, List.length_take, copied]
        rw [List.length_take] at hlong
        omega

/-- Decoding a coded block: its literals are read, then its sequences, and both are executed. -/
theorem decodeCoded_eq_some {maxLiterals : Nat} {limit : Nat → Nat → Nat} {s next : State}
    {content : Bytes} : decodeCoded maxLiterals limit s content = some next ↔
      ∃ literals code rest found window, readLiterals s.code content = some (literals, code, rest) ∧
        literals.length ≤ maxLiterals ∧ readSequences s.tables s.recent rest = some found ∧
        execute (limit (content.length - rest.length) literals.length) found.sequences literals
          s.window = some window ∧
        next = ⟨window, code, found.tables, found.recent⟩ := by
  constructor
  · intro h
    obtain ⟨⟨literals, code, rest⟩, hliterals, h⟩ := Option.bind_eq_some_iff.mp h
    dsimp only at h
    split at h
    · cases h
    · rename_i hfew
      obtain ⟨found, hfound, h⟩ := Option.bind_eq_some_iff.mp h
      obtain ⟨window, hwindow, h⟩ := Option.bind_eq_some_iff.mp h
      cases h
      exact ⟨literals, code, rest, found, window, hliterals, Nat.le_of_not_lt hfew, hfound, hwindow,
        rfl⟩
  · rintro ⟨literals, code, rest, found, window, hliterals, hfew, hfound, hwindow, rfl⟩
    unfold decodeCoded
    simp only [hliterals, hfound, hwindow, if_neg (Nat.not_lt.mpr hfew), Option.bind_eq_bind,
      Option.bind_some]
    rfl

theorem size_le_of_decodeCoded {maxLiterals : Nat} {limit : Nat → Nat → Nat} {s next : State}
    {content : Bytes} (h : decodeCoded maxLiterals limit s content = some next) :
    s.out.size ≤ next.out.size := by
  obtain ⟨literals, code, rest, found, window, -, -, -, hwindow, rfl⟩ := decodeCoded_eq_some.mp h
  have hsize := size_execute hwindow
  change s.window.out.size ≤ window.out.size
  omega

theorem size_le_of_decodePiece {h : Header} {ring : Ring} {s next : State} {piece : Block}
    (hpiece : decodePiece h ring s piece = some next) : s.out.size ≤ next.out.size := by
  cases piece with
  | plain content =>
    rw [decodePiece] at hpiece
    split at hpiece
    · cases hpiece
    · cases hpiece
      exact s.window.size_le_append _
  | repeated count byte =>
    rw [decodePiece] at hpiece
    split at hpiece
    · cases hpiece
    · cases hpiece
      exact s.window.size_le_append _
  | coded content =>
    rw [decodePiece] at hpiece
    exact size_le_of_decodeCoded hpiece

/-! ## Frames piece by piece -/

section Pieces

variable {h : Header} {ring : Ring} {limit before : Nat}

/-- A ring that turns keeps the data. -/
theorem Ring.out_turn (ring : Ring) (w : Window) : (ring.turn w).out = w.out := by
  unfold turn
  split <;> rfl

theorem State.out_turned (ring : Ring) (next : State) (stays : Prop) [Decidable stays] :
    State.out (if stays then next else { next with window := ring.turn next.window }) = next.out := by
  split
  · rfl
  · exact ring.out_turn next.window

/-- What comes of a piece is counted. -/
theorem Counts.takePiece {s s' : State} {c c' : Course} {piece : Block}
    (hc : Counts c limit (before + s.out.size))
    (htake : Zstd.takePiece h ring s c piece = some (s', c')) :
    Counts c' limit (before + s'.out.size) := by
  unfold Zstd.takePiece at htake
  split at htake
  · cases htake
    exact hc
  · unfold takePieceAfter at htake
    obtain ⟨next, hnext, htake⟩ := Option.bind_eq_some_iff.mp htake
    have hcounts := hc.append (size_le_of_decodePiece hnext) (piece.inputSize - 1)
    cases htake
    rw [State.out_turned]
    exact hcounts

theorem Counts.takePieces {s s' : State} {c c' : Course} {block : Block}
    (hc : Counts c limit (before + s.out.size))
    (htake : Zstd.takePieces h ring s c block = some (s', c')) :
    Counts c' limit (before + s'.out.size) := by
  cases block with
  | plain content =>
    obtain ⟨⟨s1, c1⟩, hfirst, hsecond⟩ := Option.bind_eq_some_iff.mp htake
    exact (hc.takePiece hfirst).takePiece hsecond
  | repeated count byte => exact hc.takePiece htake
  | coded content => exact hc.takePiece htake

/-- The data of blocks is counted, however many there are. -/
theorem Counts.readPieces {fuel : Nat} {s : State} {c c' : Course} {bytes rest : Bytes}
    {data : Array UInt8} (hc : Counts c limit (before + s.out.size))
    (hread : Zstd.readPieces h ring fuel s c bytes = some (data, c', rest)) :
    Counts c' limit (before + data.size) := by
  induction fuel generalizing s c bytes with
  | zero => cases hread
  | succ fuel ih =>
    rw [Zstd.readPieces] at hread
    obtain ⟨⟨block, last, more⟩, -, hread⟩ := Option.bind_eq_some_iff.mp hread
    dsimp only at hread
    split at hread
    · cases hread
    · obtain ⟨⟨s1, c1⟩, htake, hread⟩ := Option.bind_eq_some_iff.mp hread
      have hc1 := (hc.consume blockHeaderSize).takePieces htake
      dsimp only at hread
      split at hread
      · cases hread
      · split at hread
        · split at hread
          · obtain ⟨after, -, hread⟩ := Option.bind_eq_some_iff.mp hread
            cases hread
            exact (hc1.consume h.checksumSize).pause
          · cases hread
        · exact ih hc1 hread

end Pieces

/-! ## Frames of earlier versions -/

namespace Earlier

variable {h : Header} {limit before : Nat}

theorem size_le_of_decodeCoded {version : Version} {space : Nat} {s next : State} {content : Bytes}
    (hcontent : decodeCoded version space s content = some next) :
    s.window.out.size ≤ next.window.out.size := by
  unfold decodeCoded at hcontent
  split at hcontent
  · cases hcontent
  · obtain ⟨⟨literals, code, rest⟩, -, hcontent⟩ := Option.bind_eq_some_iff.mp hcontent
    -- the versions differ in how sequences are written
    have hexecute : ∀ found : Sequences,
        (if fits space found.sequences then
          (execute space found.sequences literals s.window).bind fun window =>
            some (⟨window, code, found.tables, found.recent⟩ : State)
        else none) = some next → s.window.out.size ≤ next.window.out.size := by
      intro found hfound
      split at hfound
      · obtain ⟨window, hwindow, hfound⟩ := Option.bind_eq_some_iff.mp hfound
        cases hfound
        have hsize := size_execute hwindow
        change s.window.out.size ≤ window.out.size
        omega
      · cases hfound
    cases version <;> obtain ⟨found, -, hfound⟩ := Option.bind_eq_some_iff.mp hcontent
    all_goals exact hexecute found hfound

theorem size_le_of_decodeContent {ring : Ring} {s next : State} {coded : Bool} {content : Bytes}
    (hcontent : decodeContent h ring s coded content = some next) :
    s.window.out.size ≤ next.window.out.size := by
  unfold decodeContent at hcontent
  dsimp only at hcontent
  split at hcontent
  · exact size_le_of_decodeCoded hcontent
  · split at hcontent
    · cases hcontent
    · cases hcontent
      exact s.window.size_le_append content

theorem State.out_turned (ring : Ring) (next : State) (stays : Prop) [Decidable stays] :
    (if stays then next else { next with window := ring.turn next.window }).window.out =
      next.window.out := by
  split
  · rfl
  · exact ring.out_turn next.window

theorem counts_takeContentAfter {ring : Ring} {s s' : State} {c c' : Course} {coded : Bool}
    {content : Bytes} (hc : Counts c limit (before + s.window.out.size))
    (htake : takeContentAfter s.window.out.size h ring s c coded content = some (s', c')) :
    Counts c' limit (before + s'.window.out.size) := by
  unfold takeContentAfter at htake
  obtain ⟨next, hnext, htake⟩ := Option.bind_eq_some_iff.mp htake
  have hcounts := hc.append (size_le_of_decodeContent hnext) (content.length - 1)
  cases htake
  rw [State.out_turned]
  exact hcounts

theorem counts_readBlocks {b : Buffers} {fuel : Nat} {s : State} {c c' : Course}
    {bytes rest : Bytes} {data : Array UInt8} (hc : Counts c limit (before + s.window.out.size))
    (hread : readBlocks h b fuel s c bytes = some (data, c', rest)) :
    Counts c' limit (before + data.size) := by
  induction fuel generalizing s c bytes with
  | zero => cases hread
  | succ fuel ih =>
    rw [readBlocks] at hread
    obtain ⟨⟨block, more⟩, -, hread⟩ := Option.bind_eq_some_iff.mp hread
    cases block with
    | ending checksum =>
      dsimp only at hread
      split at hread
      · cases hread
      · cases hread
        exact (hc.consume blockHeaderSize).pause
    | content coded content =>
      dsimp only at hread
      split at hread
      · cases hread
        exact (hc.consume blockHeaderSize).pause
      · split at hread
        · cases hread
        · obtain ⟨⟨s1, c1⟩, htake, hread⟩ := Option.bind_eq_some_iff.mp hread
          have hc1 := counts_takeContentAfter (hc.consume blockHeaderSize) htake
          dsimp only at hread
          split at hread
          · cases hread
          · exact ih hc1 hread

end Earlier

/-! ## Streams -/

/-- The stream of which nothing was read yet. -/
def freshStream (limit : Nat) : Stream := { course := { receiver := { limit } } }

namespace Stream

variable {limit : Nat}

/-- The data of a frame is counted with that of the frames before it. -/
theorem counts_readFrame {s s' : Stream} {fuel : Nat} {bytes rest : Bytes}
    (hs : Counts s.course limit s.out.size) (h : s.readFrame fuel bytes = some (s', rest)) :
    Counts s'.course limit s'.out.size := by
  unfold readFrame at h
  obtain ⟨⟨header, more⟩, -, h⟩ := Option.bind_eq_some_iff.mp h
  dsimp only at h
  split at h
  · obtain ⟨⟨data, after⟩, -, h⟩ := Option.bind_eq_some_iff.mp h
    cases h
    rw [Array.size_append]
    exact ((hs.deliver data.size).consume _).pause
  · split at h
    · cases h
    · obtain ⟨⟨data, course, after⟩, hread, h⟩ := Option.bind_eq_some_iff.mp h
      cases h
      rw [Array.size_append]
      exact (hs.consume header.size).readPieces hread

theorem counts_readEarlier {s s' : Stream} {version : Earlier.Version} {fuel : Nat}
    {bytes rest : Bytes} (hs : Counts s.course limit s.out.size)
    (h : s.readEarlier version fuel bytes = some (s', rest)) :
    Counts s'.course limit s'.out.size := by
  unfold readEarlier at h
  obtain ⟨⟨header, more⟩, -, h⟩ := Option.bind_eq_some_iff.mp h
  dsimp only at h
  split at h
  · cases h
  · obtain ⟨⟨data, course, after⟩, hread, h⟩ := Option.bind_eq_some_iff.mp h
    cases h
    rw [Array.size_append]
    exact Earlier.counts_readBlocks (hs.consume header.size) hread

/-- Frames are decoded one after the other as long as all their data together is not longer than the
    limit. -/
theorem size_le_of_readFrames {fuel : Nat} {s s' : Stream} {bytes : Bytes}
    (hs : Counts s.course limit s.out.size) (hle : s.out.size ≤ limit)
    (h : readFrames fuel s bytes = some s') : s'.out.size ≤ limit := by
  induction fuel generalizing s bytes with
  | zero => cases h
  | succ fuel ih =>
    rw [readFrames] at h
    split at h
    · cases h
      exact hle
    · obtain ⟨⟨number, rest⟩, -, h⟩ := Option.bind_eq_some_iff.mp h
      dsimp only at h
      split at h
      · obtain ⟨⟨size, rest⟩, -, h⟩ := Option.bind_eq_some_iff.mp h
        dsimp only at h
        split at h
        · cases h
        · refine ih ?_ ?_ h
          · exact hs.consume (8 + size)
          · exact hle
      · have hmore : ∀ (next : Stream) (rest : Bytes), Counts next.course limit next.out.size →
            (if next.course.receiver.isOver then none else readFrames fuel next rest) = some s' →
              s'.out.size ≤ limit := by
          intro next rest hnext h
          split at h
          · cases h
          · rename_i hover
            exact ih hnext (Nat.le_of_not_lt (mt hnext.isOver_iff.mpr hover)) h
        split at h
        · obtain ⟨⟨next, rest⟩, hframe, h⟩ := Option.bind_eq_some_iff.mp h
          exact hmore next rest (counts_readFrame hs hframe) h
        · obtain ⟨version, -, h⟩ := Option.bind_eq_some_iff.mp h
          obtain ⟨⟨next, rest⟩, hframe, h⟩ := Option.bind_eq_some_iff.mp h
          exact hmore next rest (counts_readEarlier hs hframe) h

theorem counts_freshStream (limit : Nat) :
    Counts (freshStream limit).course limit (freshStream limit).out.size :=
  ⟨Receiver.sound_initial limit, rfl, (Nat.zero_min _).symm⟩

end Stream

/-- The count alone bounds the data: when all frames are decoded, no more than the limit came of them,
    and that is the answer. -/
theorem decompress_of_readFrames {limit : Nat} {bytes : Bytes} (hbytes : bytes ≠ []) {s : Stream}
    (h : (freshStream limit).readFrames (bytes.length + 1) bytes = some s) :
    decompress limit bytes = some s.out.toList := by
  have hsize := Stream.size_le_of_readFrames (Stream.counts_freshStream limit) (Nat.zero_le _) h
  have hnonempty : bytes.isEmpty = false := by simpa using hbytes
  unfold decompress
  rw [hnonempty, if_neg Bool.false_ne_true, ← freshStream, h]
  exact if_neg (Nat.not_lt.mpr hsize)

/-- Two frames of five bytes each are within a limit of nine, but not both together. -/
example :
    let frame : Bytes := [0x28, 0xB5, 0x2F, 0xFD, 0x20, 5, 0x2B, 0, 0, 7]
    decompress 9 frame = some (List.replicate 5 7) ∧ decompress 9 (frame ++ frame) = none ∧
      decompress 10 (frame ++ frame) = some (List.replicate 10 7) := by decide +kernel

theorem decompress_of_readFrames_none {limit : Nat} {bytes : Bytes}
    (h : (freshStream limit).readFrames (bytes.length + 1) bytes = none) :
    decompress limit bytes = none := by
  unfold decompress
  rw [← freshStream, h]
  exact ite_self _

end ShardMesh.Compression.Zstd
