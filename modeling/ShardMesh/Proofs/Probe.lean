import ShardMesh.Proofs.RoundTrip

/-!
# Sending probes back

A probe that a codec has read can be encoded again by it: its kind is registered, its eight bytes fit
any scratch buffer that is worth the name, and no stage makes them too long for a frame, if the
compressors make little of little.
-/

namespace ShardMesh

/-- A family that keeps apart what a packet is and what it says: a probe writes itself as probes do,
    and to read fields does not change the kind. -/
class LawfulProbe (P : Type) [Packet P] : Prop where
  marshal_probe (p : P) (ping : Ping) (buffer : Bytes) (offset : Nat) :
    Packet.ping? p = some ping → Packet.marshal p buffer offset = ping.marshal buffer offset
  kind_unmarshal (p : P) (buffer : Bytes) (offset stop : Nat) :
    Packet.kind (Packet.unmarshal p buffer offset stop).2 = Packet.kind p

instance : LawfulProbe Ping where
  marshal_probe p ping buffer offset h := by
    cases h
    rfl
  kind_unmarshal _ _ _ _ := rfl

instance : LawfulProbe FieldPacket where
  marshal_probe p ping buffer offset h := by
    simp only [Packet.ping?] at h
    split at h
    · split at h
      · cases h
        show FieldPacket.marshal _ buffer offset = Ping.marshal _ buffer offset
        unfold FieldPacket.marshal Ping.marshal
        rw [Wire.Writer.putAll]
        rcases (Wire.Writer.atOffset buffer offset).put _ with ⟨_ | _, w⟩ <;> rfl
      · cases h
    · cases h
  kind_unmarshal _ _ _ _ := rfl

/-- A probe writes eight bytes, if there is room. -/
theorem Ping.marshal_of_room (p : Ping) {buffer : Bytes} (h : 8 ≤ buffer.length) :
    (p.marshal buffer 0).1 = .ok 8 := by
  have hbody : (Bytes.ofNatBE 8 p.sentAtMicros.toNat).length = 8 := Bytes.length_ofNatBE ..
  unfold Ping.marshal Wire.Writer.put Wire.Writer.putRaw
  simp only [Wire.Value.isPrefixed, Wire.Value.body, Wire.Writer.atOffset, hbody, Nat.zero_add, h]
  rfl

namespace Codec

variable {P : Type}

/-- Of a few bytes every stage of compression makes few bytes more. -/
theorem exists_compress_of_short {c : Codec P} (hbrief : c.compressors.Brief) {data : Bytes}
    (h : data.length ≤ 12) :
    ∃ compressed, c.compress data = .ok compressed ∧ compressed.length ≤ data.length + 64 := by
  unfold compress
  cases c.compression with
  | none => exact ⟨data, rfl, Nat.le_add_right ..⟩
  | lz4 => exact ⟨_, rfl, hbrief.lz4 data h⟩
  | zstd =>
    obtain ⟨frames, hframes, hfew⟩ := hbrief.zstd data h
    exact ⟨frames, by rw [Compression.compressWith, hframes], hfew⟩

variable [Packet P]

/-- A packet was read from a frame: the payload, decrypted and decompressed, was given to a packet of
    the announced kind in which nothing was set, and some bytes at its front were consumed. -/
def ReadFrom (c : Codec P) (frame : Bytes) (p : P) (consumed : Bytes) : Prop :=
  ∃ index fresh plain n, frame[2]? = some index ∧ c.registry.instantiate? index = some fresh ∧
    c.ofPayload ((frame.drop Frame.headerLength).take (Frame.declaredLength frame)) = .ok plain ∧
    Packet.unmarshal fresh plain 0 plain.length = (.ok n, p) ∧ consumed = plain.slice 0 n

theorem exists_readFrom {c : Codec P} {frame : Bytes} {p : P}
    (h : c.tryDecode frame = .ok (some p)) : ∃ consumed, c.ReadFrom frame p consumed := by
  unfold tryDecode at h
  split at h
  · cases h
  · dsimp only at h
    split at h
    · cases h
    · rename_i index body _ fresh hfresh
      split at h
      · cases h
      · split at h
        · cases h
        · rename_i plain hplain
          split at h
          · cases h
          · rename_i n packet hread
            cases h
            exact ⟨_, index, fresh, plain, n, rfl, hfresh, hplain, hread, rfl⟩
  · cases h

/-- What is read from a frame is of a registered kind. -/
theorem exists_indexOf_of_tryDecode [LawfulProbe P] {c : Codec P} {frame : Bytes} {p : P}
    (h : c.tryDecode frame = .ok (some p)) :
    ∃ index, c.registry.indexOf? (Packet.kind p) = some index := by
  obtain ⟨_, _, fresh, plain, n, _, hfresh, _, hread, _⟩ := exists_readFrom h
  have hkind := LawfulProbe.kind_unmarshal fresh plain 0 plain.length
  rw [hread] at hkind
  unfold PacketRegistry.indexOf?
  cases hplace : c.registry.kinds.findIdx? fun k => Packet.kind k = Packet.kind p with
  | none =>
    have hnone := List.findIdx?_eq_none_iff.mp hplace fresh (List.mem_of_getElem? hfresh)
    dsimp only at hkind
    rw [← hkind] at hnone
    simp at hnone
  | some i => exact ⟨UInt8.ofNat i, rfl⟩

/-- A probe marshals into eight bytes. -/
theorem marshal_probe [LawfulPacket P] [LawfulProbe P] {c : Codec P} (hc : c.scratch.Uniform)
    (hsize : 8 ≤ c.scratchSize) {p : P} {ping : Ping} (hping : Packet.ping? p = some ping) :
    ∃ marshaled, (c.marshal p).1 = .ok marshaled ∧ marshaled.length ≤ 8 := by
  have hbuffer : 8 ≤ c.scratch.acquire.1.length := by
    rw [hc.acquire.1]
    exact hsize
  have hlength := LawfulPacket.length_marshal p c.scratch.acquire.1 0
  have hwritten : (Packet.marshal p c.scratch.acquire.1 0).1 = .ok 8 := by
    rw [LawfulProbe.marshal_probe p ping _ _ hping]
    exact ping.marshal_of_room hbuffer
  unfold marshal
  dsimp only
  rw [hwritten]
  dsimp only
  rw [if_neg (by omega)]
  exact ⟨_, rfl, List.length_take_le ..⟩

/-- What a codec has read as a probe, it encodes. -/
theorem exists_encode_probe [LawfulPacket P] [LawfulProbe P] {c : Codec P} (hc : c.scratch.Uniform)
    (hkey : c.cipher.HasKey) (hbrief : c.compressors.Brief) (hsize : 8 ≤ c.scratchSize)
    {frame : Bytes} {p : P} {ping : Ping}
    (hread : c.tryDecode frame = .ok (some p)) (hping : Packet.ping? p = some ping) :
    ∃ echo, (c.encode p).1 = .ok echo := by
  obtain ⟨index, hindex⟩ := exists_indexOf_of_tryDecode hread
  obtain ⟨marshaled, hmarshal, hshort⟩ := marshal_probe hc hsize hping
  obtain ⟨compressed, hcompress, hfew⟩ :=
    exists_compress_of_short hbrief (Nat.le_trans hshort (by decide))
  refine exists_encode hc hkey hindex hmarshal hcompress ?_
  simp only [SealedBox.nonceLength, SealedBox.tagLength, Frame.maxPayload]
  omega

/-- Frames that are encoded have a header and at most the largest payload. -/
theorem length_of_encode {c : Codec P} {p : P} {frame : Bytes} (hc : c.scratch.Uniform)
    (h : (c.encode p).1 = .ok frame) :
    Frame.headerLength ≤ frame.length ∧ frame.length ≤ Frame.headerLength + Frame.maxPayload := by
  obtain ⟨index, marshaled, compressed, source, -, -, -, hfits, rfl⟩ := encode_eq_ok hc h
  rw [Frame.length_assemble]
  omega

end Codec
end ShardMesh
