import ShardMesh.Compression.Zstd.Writer
import ShardMesh.Proofs.Compression.Counting
import ShardMesh.Proofs.Numbers

/-!
# Reading Zstandard frames back

The writer of frames takes a coded block only after decoding it, so nothing has to be known of the
codes: a frame is read back block by block, each leading the reader to the state that the writer had
(`readPieces_writeBlocks`). What is left to show is that the reader looks at the blocks as the writer
did: the ring has room for a window of all the data and so never turns, a plain block may come in two
parts, and the reader never counts more bytes than there are.
-/

namespace ShardMesh.Compression.Zstd

/-! ## Blocks -/

theorem takeNat_ofNatLE {width n : Nat} (h : n < Nat.pow 256 width) (rest : Bytes) :
    takeNat width (Bytes.ofNatLE width n ++ rest) = some (n, rest) := by
  have hlen : (Bytes.ofNatLE width n).length = width := Bytes.length_ofNatLE ..
  rw [takeNat, List.take_left' hlen, List.drop_left' hlen, if_neg (by omega),
    Bytes.toNatLE_ofNatLE h]

/-- A block comes back with the form that its header says, plain or coded. -/
theorem takeBlock_blockHeader {form : Nat} (hform : form = 0 ∨ form = 2) (last : Bool)
    {content : Bytes} (h : content.length ≤ pieceSize) (rest : Bytes) :
    takeBlock (blockHeader content.length form last ++ content ++ rest) =
      some (if form = 0 then .plain content else .coded content, last, rest) := by
  have hpiece : pieceSize = 131072 := rfl
  have hbit : last.toNat ≤ 1 := Bool.toNat_le last
  have hcount : content.length * 8 + form * 2 + last.toNat < Nat.pow 256 blockHeaderSize := by
    have : Nat.pow 256 blockHeaderSize = 16777216 := rfl
    omega
  have hsize : (content.length * 8 + form * 2 + last.toNat) / 8 = content.length := by omega
  have hmod : (content.length * 8 + form * 2 + last.toNat) / 2 % 4 = form := by omega
  have hlast : decide ((content.length * 8 + form * 2 + last.toNat) % 2 = 1) = last := by
    cases last <;> simp <;> omega
  rw [takeBlock, blockHeader, List.append_assoc, takeNat_ofNatLE hcount]
  simp only [Option.bind_eq_bind, Option.bind_some, hsize, hmod, hlast]
  rcases hform with rfl | rfl <;> simp

/-- The block of a piece is either plain or a coded one that was accepted. -/
theorem writeBlock_cases (h : Header) (ring : Ring) (s : State) (piece : Piece) (last : Bool) :
    writeBlock h ring s piece last =
        (blockHeader piece.bytes.length 0 last ++ piece.bytes,
          { s with window := s.window.append piece.bytes }) ∨
      ∃ content next, accept? h ring s piece.bytes content = some next ∧
        writeBlock h ring s piece last = (blockHeader content.length 2 last ++ content, next) := by
  unfold writeBlock
  cases shortest? piece.candidates with
  | none => exact .inl rfl
  | some content =>
    cases haccept : accept? h ring s piece.bytes content with
    | none => left; simp [haccept]
    | some next => right; exact ⟨content, next, haccept, by simp [haccept]⟩

/-- A coded block is only accepted if the piece is not too short, the block is shorter, and decoding
    it leads to the state in which the piece is appended. -/
theorem accept?_eq_some {h : Header} {ring : Ring} {s next : State} {bytes content : Bytes}
    (ha : accept? h ring s bytes content = some next) :
    leastCoded ≤ bytes.length ∧ content.length < bytes.length ∧ content ≠ [] ∧
      decodePiece h ring s (.coded content) = some next ∧ next.out = s.out.appendList bytes := by
  unfold accept? at ha
  split at ha
  · cases ha
  · rename_i hlong
    cases hdecode : decodePiece h ring s (.coded content) with
    | none => rw [hdecode] at ha; cases ha
    | some found =>
      rw [hdecode] at ha
      dsimp only at ha
      split at ha
      · rename_i hout
        cases ha
        refine ⟨by omega, by omega, ?_, rfl, hout⟩
        rintro rfl
        cases hdecode
      · cases ha

/-! ## One block after another -/

theorem Window.append_nil (w : Window) : w.append [] = w := by
  simp [append]

theorem Window.append_append (w : Window) (a b : Bytes) :
    (w.append a).append b = w.append (a ++ b) := by
  simp only [append, appendList_append]

/-- The space behind the present run is at least what all of the data leaves. -/
theorem Ring.le_space (r : Ring) (w : Window) : r.size - w.out.size ≤ r.space w := by
  unfold space Window.filled
  omega

/-- The ring has room for so many bytes and another block. -/
def Ring.Holds (r : Ring) (total : Nat) : Prop := total + r.block ≤ r.size

section Blocks

variable {h : Header} {ring : Ring} {total : Nat} {s next : State}

/-- As long as another block fits, the ring does not turn. -/
theorem Ring.turn_of_le (hring : ring.Holds total) {w : Window} (hw : w.out.size ≤ total) :
    ring.turn w = w := by
  have hspace := ring.le_space w
  have hfits : ¬ ring.space w < ring.block := by
    unfold Holds at hring
    omega
  simp [turn, hfits]

theorem takePiece_of_decodePiece (hring : ring.Holds total) {piece : Block}
    (hinput : piece.inputSize ≠ 0) (hdecode : decodePiece h ring s piece = some next)
    (hmade : next.out.size ≤ total) (c : Course) :
    ∃ c', takePiece h ring s c piece = some (next, c') := by
  have hturn : ring.turn next.window = next.window := Ring.turn_of_le hring hmade
  rw [takePiece, if_neg hinput, takePieceAfter, hdecode]
  simp only [Option.bind_eq_bind, Option.bind_some, hturn, ite_self]
  exact ⟨_, rfl⟩

/-- A plain part is appended; an empty part is not looked at. -/
theorem takePiece_plain (hring : ring.Holds total) (content : Bytes)
    (hmade : s.out.size + content.length ≤ total) (c : Course) :
    ∃ c', takePiece h ring s c (.plain content) =
      some ({ s with window := s.window.append content }, c') := by
  by_cases hempty : content = []
  · subst hempty
    refine ⟨c, ?_⟩
    rw [Window.append_nil]
    rfl
  · have hsize : s.window.out.size = s.out.size := rfl
    have hfits : ¬ ring.space s.window < content.length := by
      have hspace := ring.le_space s.window
      unfold Ring.Holds at hring
      omega
    have hdecode : decodePiece h ring s (.plain content) =
        some { s with window := s.window.append content } := by
      rw [decodePiece, if_neg hfits]
    have hinput : (Block.plain content).inputSize ≠ 0 := by
      simpa [Block.inputSize] using hempty
    refine takePiece_of_decodePiece hring hinput hdecode ?_ c
    change (s.window.append content).out.size ≤ total
    rw [Window.size_append]
    exact hmade

/-- The reader of a block comes to the state in which the writer was after it. -/
theorem takePieces_writeBlock (hring : ring.Holds total) (piece : Piece)
    (hmade : s.out.size + piece.bytes.length ≤ total) (last : Bool) :
    ∃ form content, (form = 0 ∨ form = 2) ∧
      (writeBlock h ring s piece last).1 = blockHeader content.length form last ++ content ∧
      content.length ≤ piece.bytes.length ∧
      (writeBlock h ring s piece last).2.out = s.out.appendList piece.bytes ∧
      ∀ c : Course, ∃ c',
        takePieces h ring s c (if form = 0 then .plain content else .coded content) =
          some ((writeBlock h ring s piece last).2, c') := by
  rcases writeBlock_cases h ring s piece last with hplain | ⟨content, next, haccept, hcoded⟩
  · rw [hplain]
    refine ⟨0, piece.bytes, .inl rfl, rfl, Nat.le_refl _, rfl, fun c => ?_⟩
    -- a plain block is appended in two parts, of which each may be empty
    have hsplit := List.take_append_drop c.atHand piece.bytes
    have hlength := congrArg List.length hsplit
    rw [List.length_append] at hlength
    obtain ⟨c1, hfirst⟩ := takePiece_plain (h := h) hring (s := s)
      (piece.bytes.take c.atHand) (by omega) c
    obtain ⟨c2, hsecond⟩ := takePiece_plain (h := h) hring
      (s := { s with window := s.window.append (piece.bytes.take c.atHand) })
      (piece.bytes.drop c.atHand) (by
        change (s.window.append _).out.size + _ ≤ _
        rw [Window.size_append, Nat.add_assoc, hlength]
        exact hmade) c1
    refine ⟨c2, ?_⟩
    rw [if_pos rfl, takePieces, hfirst]
    dsimp only [Option.bind_eq_bind, Option.bind_some]
    rw [hsecond]
    dsimp only
    rw [Window.append_append, hsplit]
  · rw [hcoded]
    obtain ⟨-, hshorter, hne, hdecode, hout⟩ := accept?_eq_some haccept
    refine ⟨2, content, .inr rfl, rfl, Nat.le_of_lt hshorter, hout, fun c => ?_⟩
    have hinput : (Block.coded content).inputSize ≠ 0 := by simpa [Block.inputSize] using hne
    refine takePiece_of_decodePiece hring hinput hdecode ?_ c
    rw [hout, size_appendList]
    exact hmade

end Blocks

/-! ## All blocks -/

/-- The bytes of pieces. -/
def bytesOf (pieces : List Piece) : Bytes := pieces.flatMap (·.bytes)

@[simp] theorem bytesOf_nil : bytesOf [] = [] := rfl

@[simp] theorem bytesOf_cons (piece : Piece) (pieces : List Piece) :
    bytesOf (piece :: pieces) = piece.bytes ++ bytesOf pieces := rfl

/-- The frame says neither how long its data is nor what the checksum of it is. -/
structure Header.IsPlain (h : Header) : Prop where
  contentSize : h.contentSize = none
  checksum : h.checksum = false

theorem Header.IsPlain.admits {h : Header} (hplain : h.IsPlain) (size : Nat) :
    h.admits size = true := by
  simp [Header.admits, hplain.contentSize]

theorem Header.IsPlain.verify {h : Header} (hplain : h.IsPlain) (out : Array UInt8) (bytes : Bytes) :
    h.verify out bytes = some bytes := by
  simp [Header.verify, hplain.checksum]

section Frames

variable {h : Header} {ring : Ring} {total limit before : Nat} {s : State} {c : Course}

/-- Reading goes on behind a block that was written. -/
theorem readPieces_writeBlock (hring : ring.Holds total) (hplain : h.IsPlain)
    (hwanted : before + total ≤ limit) (hc : Counts c limit (before + s.out.size)) (piece : Piece)
    (hmade : s.out.size + piece.bytes.length ≤ total) (hlimit : piece.bytes.length ≤ h.blockLimit)
    (last : Bool) (fuel : Nat) (rest : Bytes) :
    ∃ c', Counts c' limit (before + (writeBlock h ring s piece last).2.out.size) ∧
      readPieces h ring (fuel + 1) s c ((writeBlock h ring s piece last).1 ++ rest) =
        if last then some (s.out.appendList piece.bytes, c', rest)
        else readPieces h ring fuel (writeBlock h ring s piece last).2 c' rest := by
  obtain ⟨form, content, hform, hblock, hle, hout, htake⟩ :=
    takePieces_writeBlock (h := h) hring piece hmade last
  obtain ⟨c1, htake⟩ := htake (c.consume blockHeaderSize)
  have hc1 := (hc.consume blockHeaderSize).takePieces htake
  have hover : c1.receiver.isOver = false := Bool.eq_false_iff.mpr fun hover => by
    have hlonger := hc1.isOver_iff.mp hover
    rw [hout, size_appendList] at hlonger
    omega
  have hfits : ¬ (h.blockLimit < (if form = 0 then Block.plain content else .coded content).size
      ∨ h.blockLimit < (if form = 0 then Block.plain content else .coded content).inputSize) := by
    rcases hform with rfl | rfl <;> simp [Block.size, Block.inputSize] <;> omega
  have hsize : piece.bytes.length ≤ pieceSize := Nat.le_trans hlimit (Nat.min_le_right ..)
  have hfound : takeBlock ((writeBlock h ring s piece last).1 ++ rest) =
      some (if form = 0 then .plain content else .coded content, last, rest) := by
    rw [hblock]
    exact takeBlock_blockHeader hform last (Nat.le_trans hle hsize) rest
  rw [readPieces, hfound]
  simp only [Option.bind_eq_bind, Option.bind_some, if_neg hfits, htake, hover,
    Bool.false_eq_true, if_false, hplain.admits, hplain.verify, true_or, if_true]
  cases last with
  | false => exact ⟨c1, hc1, rfl⟩
  | true =>
    rw [hout] at hc1 ⊢
    exact ⟨_, (hc1.consume h.checksumSize).pause, rfl⟩

/-- The blocks of pieces are read back, and what is made is their bytes. -/
theorem readPieces_writeBlocks (hring : ring.Holds total) (hplain : h.IsPlain)
    (hwanted : before + total ≤ limit) {pieces : List Piece}
    (hpieces : ∀ p ∈ pieces, p.bytes.length ≤ h.blockLimit)
    (hmade : s.out.size + (bytesOf pieces).length ≤ total)
    (hc : Counts c limit (before + s.out.size)) {fuel : Nat} (hfuel : pieces.length < fuel)
    (rest : Bytes) :
    ∃ c', readPieces h ring fuel s c (writeBlocks h ring s pieces ++ rest) =
      some (s.out.appendList (bytesOf pieces), c', rest) := by
  induction pieces generalizing s c fuel with
  | nil =>
    obtain ⟨fuel, rfl⟩ := Nat.exists_eq_succ_of_ne_zero (Nat.ne_of_gt (Nat.zero_lt_of_lt hfuel))
    obtain ⟨c', -, hread⟩ := readPieces_writeBlock hring hplain hwanted hc ⟨[], []⟩ hmade
      (Nat.zero_le _) true fuel rest
    exact ⟨c', hread⟩
  | cons piece pieces ih =>
    obtain ⟨fuel, rfl⟩ := Nat.exists_eq_succ_of_ne_zero (Nat.ne_of_gt (Nat.zero_lt_of_lt hfuel))
    have hlimit := hpieces piece List.mem_cons_self
    cases pieces with
    | nil =>
      rw [bytesOf_cons, bytesOf_nil, List.append_nil] at *
      obtain ⟨c', -, hread⟩ := readPieces_writeBlock hring hplain hwanted hc piece hmade hlimit
        true fuel rest
      exact ⟨c', hread⟩
    | cons next more =>
      rw [bytesOf_cons, List.length_append] at hmade
      obtain ⟨c1, hc1, hread1⟩ := readPieces_writeBlock hring hplain hwanted hc piece (by omega)
        hlimit false fuel
        (writeBlocks h ring (writeBlock h ring s piece false).2 (next :: more) ++ rest)
      obtain ⟨-, -, -, -, -, hout, -⟩ :=
        takePieces_writeBlock (h := h) hring (s := s) piece (by omega) false
      have hsize1 : (writeBlock h ring s piece false).2.out.size =
          s.out.size + piece.bytes.length := by rw [hout, size_appendList]
      obtain ⟨c2, hread2⟩ := ih (fun p hp => hpieces p (List.mem_cons_of_mem _ hp)) (by omega) hc1
        (Nat.lt_of_succ_lt_succ hfuel)
      refine ⟨c2, ?_⟩
      rw [writeBlocks, List.append_assoc, hread1, if_neg Bool.false_ne_true, hread2, hout,
        appendList_append, ← bytesOf_cons]
      exact List.cons_ne_nil _ _

end Frames

/-- Every block takes a byte or more, so the length of a frame is enough fuel to read it. -/
theorem length_lt_writeBlocks (h : Header) (ring : Ring) (s : State) (pieces : List Piece) :
    pieces.length < (writeBlocks h ring s pieces).length + 1 := by
  have hblock (s : State) (piece : Piece) (last : Bool) :
      1 ≤ (writeBlock h ring s piece last).1.length := by
    have hheader (size form : Nat) : (blockHeader size form last).length = blockHeaderSize :=
      Bytes.length_ofNatLE ..
    rcases writeBlock_cases h ring s piece last with hw | ⟨content, next, -, hw⟩ <;>
      rw [hw, List.length_append, hheader, blockHeaderSize] <;> omega
  induction pieces generalizing s with
  | nil => exact Nat.succ_pos _
  | cons piece pieces ih =>
    cases pieces with
    | nil => exact Nat.lt_succ_of_le (hblock s piece true)
    | cons next more =>
      have hfirst := hblock s piece false
      have hrest := ih (writeBlock h ring s piece false).2
      rw [writeBlocks, List.length_append, List.length_cons]
      · omega
      · exact List.cons_ne_nil _ _

/-! ## Pieces of data -/

theorem excerpt_append {data : Array UInt8} {start middle stop : Nat} (h1 : start ≤ middle)
    (h2 : middle ≤ stop) :
    excerpt data start middle ++ excerpt data middle stop = excerpt data start stop := by
  have hjoin : data.extract start middle ++ data.extract middle stop =
      data.extract (min start middle) (max middle stop) := Array.extract_append_extract
  rw [Nat.min_eq_left h1, Nat.max_eq_right h2] at hjoin
  rw [excerpt, excerpt, excerpt, ← hjoin, Array.toList_append]

theorem excerpt_of_le {data : Array UInt8} {start stop : Nat} (h : stop ≤ start) :
    excerpt data start stop = [] := by
  simp [excerpt, Array.extract_empty_of_stop_le_start h]

/-- The pieces of data are the data, and none is too long. -/
theorem piecesFrom_spec (data : Array UInt8) (fuel start : Nat) (index : Index)
    (hfuel : data.size ≤ start + fuel * pieceSize) :
    bytesOf (piecesFrom data fuel start index) = excerpt data start data.size ∧
      ∀ p ∈ piecesFrom data fuel start index, p.bytes.length ≤ pieceSize := by
  induction fuel generalizing start index with
  | zero => exact ⟨(excerpt_of_le (by omega)).symm, fun p hp => by cases hp⟩
  | succ fuel ih =>
    unfold piecesFrom
    split
    · exact ⟨(excerpt_of_le ‹_›).symm, fun p hp => by cases hp⟩
    · rename_i hmore
      have hpiece : 0 < pieceSize := by decide
      dsimp only
      rw [Nat.succ_mul] at hfuel
      obtain ⟨hbytes, hsizes⟩ := ih (min data.size (start + pieceSize))
        (segment rules data index start (min data.size (start + pieceSize))).2 (by omega)
      refine ⟨?_, fun p hp => ?_⟩
      · rw [bytesOf_cons, hbytes, excerpt_append (by omega) (Nat.min_le_left ..)]
      · rcases List.mem_cons.mp hp with rfl | hp
        · simp only [excerpt, Array.length_toList, Array.size_extract]
          omega
        · exact hsizes p hp

theorem length_piecesFrom_le (data : Array UInt8) (fuel start : Nat) (index : Index) :
    (piecesFrom data fuel start index).length ≤ fuel := by
  induction fuel generalizing start index with
  | zero => exact Nat.le_refl 0
  | succ fuel ih =>
    unfold piecesFrom
    split
    · exact Nat.zero_le _
    · exact Nat.succ_le_succ (ih ..)

/-! ## Frames -/

theorem isPlain_frameHeader (size : Nat) : (frameHeader size).IsPlain := ⟨rfl, rfl⟩

theorem windowLogFor_le {size : Nat} (h : size < Nat.pow 2 27) : windowLogFor size ≤ 27 := by
  have hlog : size.log2 < 27 := by
    by_cases hzero : size = 0
    · subst hzero
      decide
    · exact (Nat.log2_lt hzero).mpr h
  unfold windowLogFor leastWindowLog
  omega

/-- The window is large enough for the data. -/
theorem size_le_window (size : Nat) : size ≤ (frameHeader size).window := by
  have hlog : size < 2 ^ (size.log2 + 1) := Nat.lt_log2_self
  exact Nat.le_trans (Nat.le_of_lt hlog)
    (Nat.pow_le_pow_right (by decide) (Nat.le_max_right ..))

theorem blockLimit_frameHeader (size : Nat) : (frameHeader size).blockLimit = maxBlock := by
  have hwindow : Nat.pow 2 leastWindowLog ≤ (frameHeader size).window :=
    Nat.pow_le_pow_right (by decide) (Nat.le_max_left ..)
  exact Nat.min_eq_right (Nat.le_trans (by decide) hwindow)

theorem readHeader_writeHeader {size : Nat} (h : size < Nat.pow 2 27) (rest : Bytes) :
    readHeader (writeHeader size ++ rest) = some (frameHeader size, rest) := by
  have hlog := windowLogFor_le h
  have hleast : leastWindowLog ≤ windowLogFor size := Nat.le_max_left ..
  have hzero (bytes : Bytes) : takeNat 0 bytes = some (0, bytes) := rfl
  have hbyte : (windowLogFor size - 10) * 8 % 256 = (windowLogFor size - 10) * 8 := by omega
  have hwindow : windowOf? ((windowLogFor size - 10) * 8) = some (frameHeader size).window := by
    have hhigh : (windowLogFor size - 10) * 8 / 8 + 10 = windowLogFor size := by
      unfold leastWindowLog at hleast
      omega
    have hlow : (windowLogFor size - 10) * 8 % 8 = 0 := Nat.mul_mod_left ..
    unfold windowOf?
    dsimp only
    rw [hhigh, hlow, if_neg (by omega), Nat.mul_zero, Nat.add_zero]
    rfl
  unfold writeHeader readHeader
  simp [hbyte, hwindow, hzero]
  rfl

/-- The ring of a frame has room for its data. -/
theorem holds_ring_frameHeader (size : Nat) :
    ((frameHeader size).ring (frameHeader size).buffers).Holds size := by
  have hwindow := size_le_window size
  change size + (frameHeader size).blockLimit ≤
    max (frameHeader size).window minWindow + 2 * (frameHeader size).blockLimit + 2 * overshoot
  omega

/-- The buffers of the first frame are made for it. -/
theorem fit_buffers (h : Header) : ({} : Buffers).fit h.buffers = h.buffers := by
  have hinput : ¬ h.buffers.input ≤ 0 := by
    simp only [Header.buffers]
    omega
  rw [Buffers.fit, if_neg (fun hboth => hinput hboth.1)]

/-- The pieces in which data is written. -/
def piecesOf (data : Bytes) : List Piece :=
  piecesFrom data.toArray (data.length / pieceSize + 1) 0 freshIndex

theorem piecesOf_spec (data : Bytes) :
    bytesOf (piecesOf data) = data ∧
      ∀ p ∈ piecesOf data, p.bytes.length ≤ (frameHeader data.length).blockLimit := by
  have hfuel : data.toArray.size ≤ 0 + (data.length / pieceSize + 1) * pieceSize := by
    rw [List.size_toArray, pieceSize, maxBlock]
    omega
  obtain ⟨hbytes, hsizes⟩ := piecesFrom_spec data.toArray (data.length / pieceSize + 1) 0
    freshIndex hfuel
  rw [blockLimit_frameHeader]
  refine ⟨?_, hsizes⟩
  rw [piecesOf, hbytes, excerpt, Array.extract_size]

/-- The blocks that stand for data. -/
def blocksOf (data : Bytes) : Bytes :=
  let h := frameHeader data.length
  writeBlocks h (h.ring h.buffers) {} (piecesOf data)

theorem compress_eq (data : Bytes) :
    compress data = Bytes.ofNatLE 4 magic ++ (writeHeader data.length ++ blocksOf data) := by
  simp only [compress, blocksOf, piecesOf, List.append_assoc]

/-- Few bytes make at most one piece, and so they make one block. -/
theorem blocksOf_short {data : Bytes} (h : data.length < pieceSize) :
    ∃ candidates, blocksOf data =
      (writeBlock (frameHeader data.length)
        ((frameHeader data.length).ring (frameHeader data.length).buffers) {}
        ⟨data, candidates⟩ true).1 := by
  have hbytes := (piecesOf_spec data).1
  have hcount := length_piecesFrom_le data.toArray (data.length / pieceSize + 1) 0 freshIndex
  rw [← piecesOf, Nat.div_eq_of_lt h] at hcount
  unfold blocksOf
  match hpieces : piecesOf data with
  | [] =>
    rw [hpieces] at hbytes
    exact ⟨[], by rw [← hbytes]; rfl⟩
  | [⟨bytes, candidates⟩] =>
    rw [hpieces, bytesOf_cons, bytesOf_nil, List.append_nil] at hbytes
    exact ⟨candidates, by rw [← hbytes]; rfl⟩
  | _ :: _ :: _ =>
    rw [hpieces, List.length_cons, List.length_cons] at hcount
    omega

theorem empty_appendList (data : Bytes) : (#[] : Array UInt8).appendList data = data.toArray := by
  apply Array.ext'
  simp

/-- The blocks of data make the data. -/
theorem readPieces_blocksOf {limit : Nat} {data : Bytes} (hlimit : data.length ≤ limit) {c : Course}
    (hc : Counts c limit 0) {fuel : Nat} (hfuel : (blocksOf data).length < fuel) :
    ∃ c', readPieces (frameHeader data.length)
        ((frameHeader data.length).ring (frameHeader data.length).buffers) fuel {} c
        (blocksOf data) = some (data.toArray, c', []) := by
  obtain ⟨hbytes, hpieces⟩ := piecesOf_spec data
  have hcount := length_lt_writeBlocks (frameHeader data.length)
    ((frameHeader data.length).ring (frameHeader data.length).buffers) {} (piecesOf data)
  have hmade : (State.out {}).size + (bytesOf (piecesOf data)).length ≤ data.length := by
    rw [hbytes]
    exact Nat.le_of_eq (Nat.zero_add _)
  have hstart : Counts c limit (0 + (State.out {}).size) := hc
  obtain ⟨c', hread⟩ := readPieces_writeBlocks (holds_ring_frameHeader data.length)
    (isPlain_frameHeader _) (by omega) hpieces hmade hstart (Nat.lt_of_lt_of_le hcount hfuel) []
  rw [List.append_nil, hbytes] at hread
  refine ⟨c', hread.trans ?_⟩
  have hout : State.out {} = (#[] : Array UInt8) := rfl
  rw [hout, empty_appendList]

/-- The frame of data is read back. -/
theorem readFrame_blocksOf {limit : Nat} {data : Bytes} (hlimit : data.length ≤ limit)
    (hdata : data.length < Nat.pow 2 27) {fuel : Nat} (hfuel : (blocksOf data).length < fuel) :
    ∃ s, (freshStream limit).readFrame fuel (writeHeader data.length ++ blocksOf data) =
      some (s, []) ∧ s.out = data.toArray := by
  have hfit : (freshStream limit).buffers.fit (frameHeader data.length).buffers =
      (frameHeader data.length).buffers := fit_buffers _
  have hnear : ¬ maxWindow < (frameHeader data.length).window := by
    have hwindow : Nat.pow 2 (windowLogFor data.length) ≤ Nat.pow 2 27 :=
      Nat.pow_le_pow_right (by decide) (windowLogFor_le hdata)
    exact Nat.not_lt.mpr (Nat.le_succ_of_le hwindow)
  have hstart := (Stream.counts_freshStream limit).consume (frameHeader data.length).size
  obtain ⟨c, hread⟩ := readPieces_blocksOf hlimit hstart hfuel
  have hpieces : (freshStream limit).atOnce? (frameHeader data.length) fuel (blocksOf data) = none := rfl
  rw [Stream.readFrame, readHeader_writeHeader hdata]
  simp only [Option.bind_eq_bind, Option.bind_some, hpieces, if_neg hnear, hfit, hread]
  exact ⟨_, rfl, by simp [freshStream]⟩

/-- Data is one frame, behind which the stream ends. -/
theorem readFrames_compress {limit : Nat} {data : Bytes} (hlimit : data.length ≤ limit)
    (hdata : data.length < Nat.pow 2 27) {fuel : Nat} (hfuel : (blocksOf data).length < fuel) :
    ∃ s, (freshStream limit).readFrames (fuel + 1) (compress data) = some s ∧
      s.out = data.toArray := by
  have hnumber : takeNat 4 (compress data) =
      some (magic, writeHeader data.length ++ blocksOf data) := by
    rw [compress_eq]
    exact takeNat_ofNatLE (by decide) _
  have hnonempty : (compress data).isEmpty = false := by
    rw [compress_eq]
    rfl
  have hskip : isSkippable magic = false := by decide
  obtain ⟨s, hread, hout⟩ := readFrame_blocksOf hlimit hdata (Nat.lt_succ_of_lt hfuel)
  obtain ⟨fuel, rfl⟩ := Nat.exists_eq_succ_of_ne_zero (Nat.ne_of_gt (Nat.zero_lt_of_lt hfuel))
  have hover : s.course.receiver.isOver = false := Bool.eq_false_iff.mpr fun hover => by
    have hlonger := (Stream.counts_readFrame (Stream.counts_freshStream limit) hread).isOver_iff.mp
      hover
    rw [hout, List.size_toArray] at hlonger
    omega
  refine ⟨s, ?_, hout⟩
  rw [Stream.readFrames, hnonempty, hnumber]
  simp only [Option.bind_eq_bind, Option.bind_some, hskip, Bool.false_eq_true, if_false, if_true,
    hread, hover]
  rfl

/-- Compressed data stands for itself, if a window may be that large. -/
theorem standsFor_compress {data : Bytes} (hdata : data.length < Nat.pow 2 27) :
    StandsFor (compress data) data := by
  refine ⟨data.length, fun limit hlimit => ?_⟩
  have hlong : (blocksOf data).length < (compress data).length := by
    rw [compress_eq]
    simp only [List.length_append, Bytes.length_ofNatLE]
    omega
  obtain ⟨s, hread, hout⟩ := readFrames_compress hlimit hdata hlong
  have hnonempty : compress data ≠ [] := List.ne_nil_of_length_pos (Nat.zero_lt_of_lt hlong)
  rw [decompress_of_readFrames hnonempty hread, hout]

end ShardMesh.Compression.Zstd
