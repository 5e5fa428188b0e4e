import ShardMesh.Proofs.Compression.Counting
import ShardMesh.Proofs.RoundTrip

/-!
# How far hostile data expands

Whoever sends a frame may have made it by hand. A block may announce any length and copy from itself, a
stream may have any number of frames, each of them small; what comes of it is refused or within the
limit all the same, and so is everything that a packet is made to read (`Codec.toRead`).
-/

namespace ShardMesh

namespace Compression

/-! ## Blocks -/

/-- Without room for a length, or with a length beyond the limit, nothing is decoded. -/
theorem Lz4.decompress_of_header {limit : Nat} {bytes : Bytes}
    (h : bytes.length < 4 ∨ limit < Bytes.toNatLE (bytes.take 4)) :
    Lz4.decompress limit bytes = Option.none := by
  unfold Lz4.decompress
  by_cases hshort : bytes.length < 4
  · exact if_pos hshort
  · rw [if_neg hshort]
    exact if_pos (h.resolve_left hshort)

/-! ## The stage -/

/-- A stage that compresses answers with its one error, or within the limit. -/
theorem decompress_cases {c : Compression} (hc : c ≠ .none) (bytes : Bytes) :
    c.decompress bytes = .error .decompressionFailure ∨
      ∃ data, c.decompress bytes = .ok data ∧ data.length ≤ maxUncompressed := by
  cases h : c.decompress bytes with
  | error e =>
    obtain rfl := decompress_error h
    exact .inl rfl
  | ok data => exact .inr ⟨data, rfl, length_le_of_decompress hc h⟩

end Compression

/-! ## The codec -/

namespace Codec

variable {P : Type}

/-- What decoding a frame hands to a packet: a fresh packet of the kind, and the bytes that it has to
    read. Nothing is handed over for no bytes. -/
def toRead (c : Codec P) (frame : Bytes) : Except ProtocolError (Option (P × Bytes)) :=
  match frame with
  | [] => .ok none
  | _ :: _ :: index :: body =>
    let declared := Frame.declaredLength frame
    match c.registry.instantiate? index with
    | none => .error (.unknownPacketType index)
    | some fresh =>
      if body.length < declared then
        .error (.bufferUnderflow Frame.headerLength declared body.length)
      else (c.ofPayload (body.take declared)).map fun plain => some (fresh, plain)
  | _ => .error (.malformed .truncatedFrame)

/-- A whole frame hands over what the stages make of its payload. -/
theorem toRead_complete {c : Codec P} {a b index : UInt8} {payload : Bytes} {fresh : P}
    (h : payload.length = Frame.declaredLength (a :: b :: index :: payload))
    (hfresh : c.registry.instantiate? index = some fresh) :
    c.toRead (a :: b :: index :: payload) =
      (c.ofPayload payload).map fun plain => some (fresh, plain) := by
  unfold toRead
  dsimp only
  rw [hfresh, ← h]
  dsimp only
  rw [if_neg (Nat.lt_irrefl _), List.take_length]

/-- Decoding a frame is making a packet read what is handed to it. -/
theorem tryDecode_eq_toRead [Packet P] (c : Codec P) (frame : Bytes) :
    c.tryDecode frame = (c.toRead frame).bind fun
      | none => .ok none
      | some (fresh, plain) =>
        match Packet.unmarshal fresh plain 0 plain.length with
        | (.error e, _) => .error e
        | (.ok _, packet) => .ok (some packet) := by
  match frame with
  | [] => rfl
  | [_] => rfl
  | [_, _] => rfl
  | a :: b :: index :: body =>
    unfold tryDecode toRead
    dsimp only
    cases c.registry.instantiate? index with
    | none => rfl
    | some fresh =>
      dsimp only
      by_cases hshort : body.length < Frame.declaredLength (a :: b :: index :: body)
      · rw [if_pos hshort, if_pos hshort]
        rfl
      · rw [if_neg hshort, if_neg hshort]
        cases c.ofPayload (body.take (Frame.declaredLength (a :: b :: index :: body))) with
        | error e => rfl
        | ok plain => rfl

/-- What is handed over to read came out of the stage that decompresses. -/
theorem exists_payload_of_toRead {c : Codec P} {frame plain : Bytes} {fresh : P}
    (h : c.toRead frame = .ok (some (fresh, plain))) :
    ∃ compressed, c.compression.decompress compressed = .ok plain := by
  unfold toRead at h
  split at h
  · cases h
  · dsimp only at h
    split at h
    · cases h
    · split at h
      · cases h
      · rename_i body _ _ _ _
        cases hplain : c.ofPayload (body.take (Frame.declaredLength _)) with
        | error e => rw [hplain] at h; cases h
        | ok found =>
          rw [hplain] at h
          cases h
          unfold ofPayload at hplain
          split at hplain
          · rename_i compressed _
            exact ⟨compressed, hplain⟩
          · cases hplain
  · cases h

end Codec

/-- Nothing expands beyond the limit.

Whatever bytes come to a stage that compresses, it answers with its one error or with no more bytes
than the limit. Of a block it answers no more bytes than the first four announce, and always with the
error if these announce more than the limit or are not there. Of frames in a row it is all their data
that counts: if they are decoded to the end, together they stand for no more than the limit. So
whatever frame comes to a codec with such a stage, decoding is to hand a fresh packet some bytes to
read, and these are no more than the limit. -/
theorem expands_within_limit {P : Type} [Packet P] :
    (∀ (stage : Compression) (bytes : Bytes), stage ≠ .none →
      stage.decompress bytes = .error .decompressionFailure ∨
        ∃ data, stage.decompress bytes = .ok data ∧ data.length ≤ maxUncompressed) ∧
    (∀ bytes : Bytes,
      (bytes.length < 4 ∨ maxUncompressed < Bytes.toNatLE (bytes.take 4) →
        Compression.lz4.decompress bytes = .error .decompressionFailure) ∧
      ∀ data, Compression.lz4.decompress bytes = .ok data →
        data.length ≤ Bytes.toNatLE (bytes.take 4)) ∧
    (∀ bytes : Bytes,
      match (Compression.Zstd.freshStream maxUncompressed).readFrames (bytes.length + 1) bytes with
      | some s => s.out.size ≤ maxUncompressed ∧
        (bytes ≠ [] → Compression.zstd.decompress bytes = .ok s.out.toList)
      | none => Compression.zstd.decompress bytes = .error .decompressionFailure) ∧
    ∀ (c : Codec P) (frame : Bytes), c.compression ≠ .none →
      (c.tryDecode frame = (c.toRead frame).bind fun
        | none => .ok none
        | some (fresh, plain) =>
          match Packet.unmarshal fresh plain 0 plain.length with
          | (.error e, _) => .error e
          | (.ok _, packet) => .ok (some packet)) ∧
      ∀ fresh plain, c.toRead frame = .ok (some (fresh, plain)) →
        plain.length ≤ maxUncompressed := by
  refine ⟨fun stage bytes hstage => Compression.decompress_cases hstage bytes, fun bytes => ⟨?_, ?_⟩,
    fun bytes => ?_, fun c frame hstage => ⟨c.tryDecode_eq_toRead frame, ?_⟩⟩
  · intro hheader
    have hnone := Compression.Lz4.decompress_of_header hheader
    simp only [Compression.decompress, hnone]
  · intro data hdata
    unfold Compression.decompress at hdata
    dsimp only at hdata
    split at hdata
    · rename_i plain hplain
      cases hdata
      exact (Compression.Lz4.length_le_announced hplain).1
    · cases hdata
  · split
    · rename_i s hread
      have hcounts := Compression.Zstd.Stream.counts_freshStream maxUncompressed
      have hsize := Compression.Zstd.Stream.size_le_of_readFrames hcounts (Nat.zero_le _) hread
      refine ⟨hsize, fun hbytes => ?_⟩
      simp only [Compression.decompress, Compression.Zstd.decompress_of_readFrames hbytes hread]
    · rename_i hread
      simp only [Compression.decompress, Compression.Zstd.decompress_of_readFrames_none hread]
  · intro fresh plain hread
    obtain ⟨compressed, hplain⟩ := Codec.exists_payload_of_toRead hread
    exact Compression.length_le_of_decompress hstage hplain

/-- A block that announces four gigabytes is refused, and so is one without a length. One of nine bytes
    that copies from itself is handed over with the sixteen bytes that it announces. -/
theorem forged_blocks_within_limit :
    let fresh : FieldPacket := .zero ⟨"Note"⟩ [.bytes]
    let block : Bytes := [16, 0, 0, 0, 0x1B, 7, 1, 0, 0]
    let plain : Bytes := List.replicate 16 7
    let c : Codec FieldPacket := ⟨⟨[fresh]⟩, .lz4, .plain, .ofSize 1 16, ⟨0⟩, .standard⟩
    (maxUncompressed < Bytes.toNatLE [0xFF, 0xFF, 0xFF, 0xFF] ∧
      Compression.lz4.decompress [0xFF, 0xFF, 0xFF, 0xFF, 0] = .error .decompressionFailure) ∧
    ([16, 0, 0].length < 4 ∧
      Compression.lz4.decompress [16, 0, 0] = .error .decompressionFailure) ∧
    (Compression.lz4.decompress block = .ok plain ∧ plain.length ≤ Bytes.toNatLE (block.take 4)) ∧
    c.compression ≠ .none ∧ c.toRead (Frame.assemble 0 block) = .ok (some (fresh, plain)) ∧
    plain.length ≤ maxUncompressed := by
  intro fresh block plain c
  obtain ⟨-, hblock, -, hcodec⟩ := expands_within_limit (P := FieldPacket)
  have hhuge : maxUncompressed < Bytes.toNatLE [0xFF, 0xFF, 0xFF, 0xFF] := by decide
  have hplain : Compression.lz4.decompress block = .ok plain := by rfl
  have hstage : c.compression ≠ .none := by decide
  have hread : c.toRead (Frame.assemble 0 block) = .ok (some (fresh, plain)) := by
    have hpayload : c.ofPayload block = .ok plain := hplain
    have hfits : block.length ≤ Frame.maxPayload := by decide
    have hwhole := Frame.declaredLength_assemble hfits 0
    refine (Codec.toRead_complete (c := c) hwhole.symm rfl).trans ?_
    rw [hpayload]
    rfl
  exact ⟨⟨hhuge, (hblock _).1 (.inr hhuge)⟩, ⟨by decide, (hblock _).1 (.inl (by decide))⟩,
    ⟨hplain, (hblock block).2 plain hplain⟩, hstage, hread,
    (hcodec c _ hstage).2 fresh plain hread⟩

end ShardMesh
