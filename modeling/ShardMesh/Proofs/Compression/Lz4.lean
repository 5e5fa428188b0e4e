import ShardMesh.Compression.Lz4.Writer
import ShardMesh.Proofs.Compression.Repetition
import ShardMesh.Proofs.Numbers

/-!
# Reading LZ4 blocks back

The reader of blocks finds what the writer put down: lengths of any size, segments, and the literals
at the end. As the description that is written stands for the data, the block of data is decoded to it
(`decodeBlock_writeBlock`).
-/

namespace ShardMesh.Compression.Lz4

/-! ## Lengths -/

theorem readMoreLength_moreLength (base n : Nat) (rest : Bytes) :
    readMoreLength base (moreLength n ++ rest) = some (base + n, rest) := by
  have hlast (base : Nat) :
      readMoreLength base (UInt8.ofNat (n % 255) :: rest) = some (base + n % 255, rest) := by
    have hbyte : (UInt8.ofNat (n % 255)).toNat = n % 255 := by rw [Bytes.toNat_ofNat_mod]; omega
    have hne : UInt8.ofNat (n % 255) ≠ 255 := by
      intro h
      rw [h] at hbyte
      have : n % 255 < 255 := Nat.mod_lt _ (by decide)
      exact absurd hbyte.symm (Nat.ne_of_lt this)
    rw [readMoreLength, if_neg hne, hbyte]
  have hfull (count base : Nat) :
      readMoreLength base (List.replicate count 255 ++ (UInt8.ofNat (n % 255) :: rest)) =
        some (base + 255 * count + n % 255, rest) := by
    induction count generalizing base with
    | zero => exact hlast base
    | succ count ih =>
      rw [List.replicate_succ, List.cons_append, readMoreLength, if_pos rfl, ih]
      congr 2
      omega
  rw [moreLength, List.append_assoc, List.singleton_append, hfull]
  congr 2
  omega

/-- A length is read back from its four bits and the bytes after the token. -/
theorem readLength_overflow (n : Nat) (rest : Bytes) :
    readLength (nibble n) (overflow n ++ rest) = some (n, rest) := by
  unfold readLength nibble overflow
  by_cases h : 15 ≤ n
  · rw [if_pos (by omega), if_pos h, readMoreLength_moreLength]
    congr 2
    omega
  · rw [if_neg (by omega), if_neg h, Nat.min_eq_left (by omega)]
    rfl

/-- A token holds two lengths of four bits. -/
theorem token_halves (a b : Nat) :
    (UInt8.ofNat (nibble a * 16 + nibble b)).toNat / 16 = nibble a ∧
      (UInt8.ofNat (nibble a * 16 + nibble b)).toNat % 16 = nibble b := by
  rw [Bytes.toNat_ofNat_mod]
  unfold nibble
  omega

/-! ## Pieces -/

/-- What the format can say of a copy: it has the least length or more, and its offset takes two
    bytes. -/
def Writable (s : Segment) : Prop := minCopy ≤ s.length ∧ s.offset < 65536

theorem readPiece_writeSegment {s : Segment} (h : Writable s) (rest : Bytes) :
    readPiece (writeSegment s ++ rest) = some (.segment s, rest) := by
  obtain ⟨hmin, hoff⟩ := h
  obtain ⟨hlit, hcopy⟩ := token_halves s.literals.length (s.length - minCopy)
  have hoffset : (UInt8.ofNat s.offset).toNat + 256 * (UInt8.ofNat (s.offset / 256)).toNat =
      s.offset := by
    rw [Bytes.toNat_ofNat_mod, Bytes.toNat_ofNat_mod]
    omega
  have hlen : s.length - minCopy + minCopy = s.length := Nat.sub_add_cancel hmin
  simp only [writeSegment, Bytes.ofNatLE, List.cons_append, List.append_assoc, List.nil_append,
    readPiece, hlit, hcopy, readLength_overflow, Option.bind_eq_bind, Option.bind_some,
    List.take_left, List.drop_left, Nat.lt_irrefl, if_false, hoffset, hlen]
  rfl

theorem readPiece_writeTail (tail : Bytes) : readPiece (writeTail tail) = some (.tail tail, []) := by
  obtain ⟨hlit, -⟩ := token_halves tail.length 0
  have hzero : nibble tail.length * 16 + nibble 0 = nibble tail.length * 16 := rfl
  rw [hzero] at hlit
  simp only [writeTail, List.cons_append, readPiece, hlit, readLength_overflow, Option.bind_eq_bind,
    Option.bind_some, List.take_length, List.drop_length, Nat.lt_irrefl, if_false]

/-! ## Blocks -/

theorem readPieces_write {segments : List Segment} (h : ∀ s ∈ segments, Writable s) (tail : Bytes)
    (found : Array Segment) {fuel : Nat} (hfuel : segments.length < fuel) :
    readPieces fuel (segments.flatMap writeSegment ++ writeTail tail) found =
      some ⟨found.toList ++ segments, tail⟩ := by
  induction segments generalizing fuel found with
  | nil =>
    obtain ⟨fuel, rfl⟩ := Nat.exists_eq_succ_of_ne_zero (Nat.ne_of_gt hfuel)
    rw [List.flatMap_nil, List.nil_append, readPieces, readPiece_writeTail, List.append_nil]
  | cons s segments ih =>
    obtain ⟨fuel, rfl⟩ := Nat.exists_eq_succ_of_ne_zero (Nat.ne_of_gt (Nat.zero_lt_of_lt hfuel))
    have hs := readPiece_writeSegment (h s List.mem_cons_self)
    rw [List.flatMap_cons, List.append_assoc, readPieces, hs]
    dsimp only
    rw [ih (fun s hs => h s (List.mem_cons_of_mem _ hs)) _ (Nat.lt_of_succ_lt_succ hfuel),
      Array.toList_push, List.append_assoc, List.singleton_append]

/-- Every segment takes a byte or more, so the length of a block is enough fuel to read it. -/
theorem length_segments_lt (segments : List Segment) (tail : Bytes) :
    segments.length < (segments.flatMap writeSegment ++ writeTail tail).length := by
  induction segments with
  | nil => simp [writeTail]
  | cons s segments ih =>
    rw [List.flatMap_cons, List.append_assoc, List.length_append, List.length_cons]
    have hs : 1 ≤ (writeSegment s).length := by simp [writeSegment]
    omega

theorem readBlock_writeBlock {d : Segmentation} (h : ∀ s ∈ d.segments, Writable s) :
    readBlock (writeBlock d) = some d := by
  unfold readBlock writeBlock
  rw [readPieces_write h _ _ (length_segments_lt d.segments d.tail)]
  rfl

/-! ## Data -/

/-- The block that describes data is decoded to the data. -/
theorem decodeBlock_writeBlock (data : Bytes) :
    decodeBlock data.length (writeBlock (descriptionOf data)) = some data := by
  obtain ⟨hexpand, hreach, hadmitted⟩ :=
    segment_describes rules data.toArray (indexFor data.length)
  have hd : descriptionOf data = (segment rules data.toArray (indexFor data.length) 0
    data.toArray.size).1 := by rw [List.size_toArray]; rfl
  rw [← hd] at hexpand hreach hadmitted
  have hwritable : ∀ s ∈ (descriptionOf data).segments, Writable s := fun s hs =>
    ⟨(hadmitted s hs).1, Nat.lt_succ_of_le (hadmitted s hs).2⟩
  have hfits : (descriptionOf data).size ≤ data.length := by
    have hexpanded := Segmentation.length_expand (descriptionOf data)
    rw [hexpand] at hexpanded
    exact Nat.le_of_eq hexpanded.symm
  rw [decodeBlock, readBlock_writeBlock hwritable]
  dsimp only
  rw [if_pos ⟨hfits, hreach⟩, hexpand]

end ShardMesh.Compression.Lz4
