import ShardMesh.Proofs.Framing
import ShardMesh.Proofs.Marshal
import ShardMesh.Proofs.PacketRegistry
import ShardMesh.Proofs.Compression.Limit
import ShardMesh.Proofs.Crypto.SealedBox

/-!
# From packet to frame and back

Every step of encoding is undone by a step of decoding: the frame by its announced length, the
place in the registry by the packet that stands there, encryption by decryption, compression by
decompression, and marshaling by unmarshaling as far as the packet itself does it. What a codec did
before makes no difference, since encoding changes none of its settings.
-/

namespace ShardMesh

/-! ## Frames -/

namespace Frame

/-- A frame announces the length of its payload, if this fits two bytes. -/
theorem declaredLength_assemble {payload : Bytes} (h : payload.length ≤ maxPayload) (index : UInt8) :
    declaredLength (assemble index payload) = payload.length := by
  have hfits : payload.length < Nat.pow 256 2 := Nat.lt_of_le_of_lt h (by decide)
  unfold declaredLength assemble
  rw [List.take_left' (Bytes.length_ofNatBE ..), Bytes.toNatBE_ofNatBE hfits]

theorem length_assemble (index : UInt8) (payload : Bytes) :
    (assemble index payload).length = headerLength + payload.length := by
  rw [assemble, List.length_append, Bytes.length_ofNatBE, List.length_cons, headerLength]
  omega

end Frame

namespace Codec

variable {P : Type}

/-- What the stages make of marshaled bytes stands for these bytes, whatever compressors were used. -/
theorem ofPayload_encrypt {c : Codec P} (hkey : c.cipher.HasKey) (source : NonceSource)
    {k : Compressors} {marshaled compressed : Bytes} (h : marshaled.length ≤ maxUncompressed)
    (hrestores : k.Restores marshaled)
    (hcompress : c.compression.compressWith k marshaled = .ok compressed) :
    c.ofPayload (c.cipher.encrypt source compressed).1 = .ok marshaled := by
  rw [ofPayload, Cipher.decrypt_encrypt hkey]
  exact Compression.decompress_compressWith_of_le h hrestores hcompress

/-! ## What encoding keeps -/

/-- A codec has the settings of another one, and its buffers are in order if those of the other
    were. -/
structure Continues (c c' : Codec P) : Prop where
  registry : c'.registry = c.registry
  compression : c'.compression = c.compression
  compressors : c'.compressors = c.compressors
  cipher : c'.cipher = c.cipher
  scratchSize : c'.scratchSize = c.scratchSize
  uniform : c.scratch.Uniform → c'.scratch.Uniform

theorem Continues.refl (c : Codec P) : c.Continues c := ⟨rfl, rfl, rfl, rfl, rfl, id⟩

theorem Continues.trans {a b c : Codec P} (h : a.Continues b) (h' : b.Continues c) :
    a.Continues c :=
  ⟨h'.registry.trans h.registry, h'.compression.trans h.compression,
    h'.compressors.trans h.compressors, h'.cipher.trans h.cipher,
    h'.scratchSize.trans h.scratchSize, h'.uniform ∘ h.uniform⟩

theorem Continues.compress_eq {c c' : Codec P} (h : c.Continues c') (marshaled : Bytes) :
    c'.compress marshaled = c.compress marshaled := by
  rw [compress, compress, h.compression, h.compressors]

variable [Packet P]

/-- The codec after packets have been encoded, of which any may have been refused. -/
def afterEncoding (c : Codec P) (history : List P) : Codec P :=
  history.foldl (fun c p => (c.encode p).2) c

/-- Marshaling gives the scratch buffer back, also where the packet refuses. -/
theorem marshal_snd (c : Codec P) (p : P) :
    (c.marshal p).2 = { c with
      scratch := c.scratch.acquire.2.release (Packet.marshal p c.scratch.acquire.1 0).2 } := by
  unfold marshal
  dsimp only
  split
  · rfl
  · split <;> rfl

theorem marshal_continues (c : Codec P) (p : P) (hc : c.scratch.Uniform) :
    c.Continues (c.marshal p).2 := by
  rw [marshal_snd]
  obtain ⟨-, huniform, hsize⟩ := hc.acquire
  obtain ⟨hreleased, hsame⟩ := huniform.release (Packet.marshal p c.scratch.acquire.1 0).2
  exact ⟨rfl, rfl, rfl, rfl, hsame.trans hsize, fun _ => hreleased⟩

/-- A packet marshals into no more bytes than a scratch buffer has. -/
theorem length_marshal [LawfulPacket P] {c : Codec P} {p : P} {marshaled : Bytes}
    (hc : c.scratch.Uniform) (h : (c.marshal p).1 = .ok marshaled) :
    marshaled.length ≤ c.scratchSize := by
  have hbuffer := LawfulPacket.length_marshal p c.scratch.acquire.1 0
  rw [hc.acquire.1] at hbuffer
  unfold marshal at h
  dsimp only at h
  split at h
  · cases h
  · split at h
    · cases h
    · cases h
      rw [scratchSize, ← hbuffer]
      exact List.length_take_le' ..

/-- Encoding changes the supply of nonces and which buffers wait, and nothing else. -/
theorem encode_continues (c : Codec P) (p : P) (hc : c.scratch.Uniform) :
    c.Continues (c.encode p).2 := by
  have hmarshal := marshal_continues c p hc
  unfold encode
  split
  · exact .refl c
  · split
    · rename_i h
      rwa [h] at hmarshal
    · rename_i h
      rw [h] at hmarshal
      split
      · exact hmarshal
      · dsimp only
        split <;> exact ⟨hmarshal.registry, hmarshal.compression, hmarshal.compressors,
          hmarshal.cipher, hmarshal.scratchSize, hmarshal.uniform⟩

/-- However many packets have been encoded, the settings are the same. -/
theorem afterEncoding_continues (c : Codec P) (history : List P) (hc : c.scratch.Uniform) :
    c.Continues (c.afterEncoding history) := by
  induction history generalizing c with
  | nil => exact .refl c
  | cons p history ih =>
    have hfirst := encode_continues c p hc
    exact hfirst.trans (ih _ (hfirst.uniform hc))

/-! ## The round trip -/

/-- The frame of a packet is made of its place in the registry and of what the stages make of the
    marshaled packet. -/
theorem encode_eq_ok {c : Codec P} {p : P} {frame : Bytes} (hc : c.scratch.Uniform)
    (h : (c.encode p).1 = .ok frame) :
    ∃ index marshaled compressed source, c.registry.indexOf? (Packet.kind p) = some index ∧
      (c.marshal p).1 = .ok marshaled ∧ c.compress marshaled = .ok compressed ∧
      (c.cipher.encrypt source compressed).1.length ≤ Frame.maxPayload ∧
      frame = Frame.assemble index (c.cipher.encrypt source compressed).1 := by
  have hmarshal := marshal_continues c p hc
  unfold encode at h
  split at h
  · cases h
  · rename_i index hindex
    split at h
    · cases h
    · rename_i marshaled next hnext
      rw [hnext] at hmarshal
      dsimp only at h
      rw [hmarshal.compress_eq] at h
      split at h
      · cases h
      · rename_i compressed hcompress
        rw [hmarshal.cipher] at h
        split at h
        · cases h
        · rename_i hfits
          cases h
          exact ⟨index, marshaled, compressed, next.nonces, hindex, by rw [hnext], hcompress,
            Nat.not_lt.mp hfits, rfl⟩

/-- A packet of a registered kind that marshals is not refused, if its compressed form leaves room
    for a nonce and a tag in a frame. -/
theorem exists_encode {c : Codec P} {p : P} {index : UInt8} {marshaled compressed : Bytes}
    (hc : c.scratch.Uniform) (hkey : c.cipher.HasKey)
    (hindex : c.registry.indexOf? (Packet.kind p) = some index)
    (hmarshal : (c.marshal p).1 = .ok marshaled) (hcompress : c.compress marshaled = .ok compressed)
    (hroom : SealedBox.nonceLength + compressed.length + SealedBox.tagLength ≤ Frame.maxPayload) :
    ∃ frame, (c.encode p).1 = .ok frame := by
  have hcontinues := marshal_continues c p hc
  unfold encode
  rw [hindex]
  dsimp only
  rcases hnext : c.marshal p with ⟨result, next⟩
  rw [hnext] at hmarshal hcontinues
  dsimp only at hmarshal hcontinues
  subst hmarshal
  dsimp only
  rw [hcontinues.compress_eq, hcompress]
  dsimp only
  rw [hcontinues.cipher]
  have hfits := Nat.le_trans (Cipher.length_encrypt_le hkey next.nonces compressed) hroom
  rw [if_neg (Nat.not_lt.mpr hfits)]
  exact ⟨_, rfl⟩

/-- An assembled frame is decoded by reading its payload. -/
theorem tryDecode_assemble (c : Codec P) (index : UInt8) {payload : Bytes}
    (h : payload.length ≤ Frame.maxPayload) :
    c.tryDecode (Frame.assemble index payload) = (c.readPayload index payload).map some :=
  tryDecode_complete c (Frame.declaredLength_assemble h index).symm

/-- A receiver can talk to a sender: it has the same stages, and knows the kinds of the sender in the
    same places. Both have registries without duplicates. They may have different compressors. -/
structure Understands (receiver sender : Codec P) : Prop where
  compression : receiver.compression = sender.compression
  cipher : receiver.cipher = sender.cipher
  kinds : sender.registry.kinds <+: receiver.registry.kinds
  distinct : sender.registry.Distinct
  distinctThere : receiver.registry.Distinct

/-- The byte of a packet's kind is its place at either end. -/
theorem Understands.instantiate?_index {sender receiver : Codec P}
    (h : receiver.Understands sender) {i : Nat} {fresh : P} {index : UInt8}
    (hplace : sender.registry.kinds[i]? = some fresh)
    (hindex : sender.registry.indexOf? (Packet.kind fresh) = some index) :
    index.toNat = i ∧ receiver.registry.instantiate? index = some fresh := by
  rw [h.distinct.indexOf?_kind hplace] at hindex
  obtain rfl := Option.some.inj hindex
  obtain ⟨hi, rfl⟩ := List.getElem?_eq_some_iff.mp hplace
  refine ⟨h.distinct.toNat_place hi, h.distinctThere.instantiate?_place ?_⟩
  rw [List.getElem?_eq_getElem (Nat.lt_of_lt_of_le hi h.kinds.length_le), h.kinds.getElem hi]

/-- A frame of a sender is decoded to the packet that it was made of, if this packet reads back what
    it marshaled, and what the sender's compressors make reads back. -/
theorem Understands.tryDecode_encode [LawfulPacket P] {sender receiver : Codec P}
    (h : receiver.Understands sender) (hkey : sender.cipher.HasKey)
    (hscratch : sender.scratch.Uniform) (hsize : sender.scratchSize ≤ maxUncompressed)
    (hrestores : ∀ data : Bytes, data.length ≤ maxUncompressed → sender.compressors.Restores data)
    {i : Nat} {fresh p : P} (hplace : sender.registry.kinds[i]? = some fresh)
    (hkind : Packet.kind fresh = Packet.kind p)
    (hread : ∀ marshaled, (sender.marshal p).1 = .ok marshaled →
      ∃ read, Packet.unmarshal fresh marshaled 0 marshaled.length = (.ok read, p))
    {frame : Bytes} (hframe : (sender.encode p).1 = .ok frame) :
    frame.length = 3 + Bytes.toNatBE (frame.take 2) ∧ frame[2]?.map UInt8.toNat = some i ∧
      receiver.tryDecode frame = .ok (some p) := by
  obtain ⟨index, marshaled, compressed, source, hindex, hmarshal, hcompress, hfits, rfl⟩ :=
    encode_eq_ok hscratch hframe
  rw [← hkind] at hindex
  obtain ⟨hi, hfresh⟩ := h.instantiate?_index hplace hindex
  have hlength := Nat.le_trans (length_marshal hscratch hmarshal) hsize
  have hplain : receiver.ofPayload (sender.cipher.encrypt source compressed).1 = .ok marshaled := by
    rw [compress, ← h.compression] at hcompress
    rw [← h.cipher] at hkey ⊢
    exact ofPayload_encrypt hkey source hlength (hrestores marshaled hlength) hcompress
  obtain ⟨read, hpacket⟩ := hread marshaled hmarshal
  refine ⟨?_, ?_, ?_⟩
  · have hannounced := Frame.declaredLength_assemble hfits index
    rw [Frame.declaredLength] at hannounced
    rw [hannounced]
    exact Frame.length_assemble index _
  · rw [← hi]
    rfl
  · rw [tryDecode_assemble receiver index hfits, readPayload, hfresh]
    dsimp only
    rw [hplain]
    dsimp only
    rw [hpacket]
    rfl

/-- A frame of a sender comes to a receiver as the packet that it was made of. Sender and receiver
    have the same stages, and the receiver registered the kinds of the sender first, and may have
    registered more. The sender may have encoded whatever before. Of the packet it is asked that it
    reads back what it marshaled, and of the sender's compressors that what they make reads back. -/
theorem decode_encode [LawfulPacket P] {kinds more : List P} {known knownThere : PacketRegistry P}
    (hknown : PacketRegistry.ofList kinds = .ok known)
    (hthere : PacketRegistry.ofList (kinds ++ more) = .ok knownThere)
    (compression : Compression) {compressors : Compressors}
    (hrestores : ∀ data : Bytes, data.length ≤ maxUncompressed → compressors.Restores data)
    {cipher : Cipher} (hkey : cipher.HasKey)
    {size : Nat} (hsize : size ≤ maxUncompressed) (nonces : NonceSource) (history : List P)
    (pool : BufferPool) (supply : NonceSource) (others : Compressors)
    {i : Nat} {fresh p : P} (hplace : kinds[i]? = some fresh)
    (hkind : Packet.kind fresh = Packet.kind p) :
    let sender : Codec P := afterEncoding
      ⟨known, compression, cipher, BufferPool.ofSize scratchCount size, nonces, compressors⟩ history
    let receiver : Codec P := ⟨knownThere, compression, cipher, pool, supply, others⟩
    (∀ marshaled, (sender.marshal p).1 = .ok marshaled →
      ∃ read, Packet.unmarshal fresh marshaled 0 marshaled.length = (.ok read, p)) →
    ∀ frame, (sender.encode p).1 = .ok frame →
      frame.length = 3 + Bytes.toNatBE (frame.take 2) ∧
      frame[2]?.map UInt8.toNat = some i ∧
      receiver.tryDecode frame = .ok (some p) ∧
      ∀ metrics, receiver.decode metrics frame = (some p, metrics) := by
  intro sender receiver hread frame hframe
  obtain ⟨hdistinct, hkinds⟩ := PacketRegistry.ofList_eq_ok hknown
  obtain ⟨hdistinctThere, hkindsThere⟩ := PacketRegistry.ofList_eq_ok hthere
  have hfresh := BufferPool.uniform_ofSize scratchCount size
  have hsender := afterEncoding_continues
    ⟨known, compression, cipher, BufferPool.ofSize scratchCount size, nonces, compressors⟩ history
    hfresh
  have hunderstands : receiver.Understands sender := by
    refine ⟨hsender.compression.symm, hsender.cipher.symm, ?_, ?_, hdistinctThere⟩
    · rw [hsender.registry, hkinds, hkindsThere]
      exact List.prefix_append ..
    · rw [hsender.registry]
      exact hdistinct
  obtain ⟨hlength, hindex, hdecode⟩ := hunderstands.tryDecode_encode (i := i)
    (by rw [hsender.cipher]; exact hkey) (hsender.uniform hfresh)
    (by rw [hsender.scratchSize]; exact hsize) (by rw [hsender.compressors]; exact hrestores)
    (by rw [hsender.registry, hkinds, hplace]) hkind hread hframe
  refine ⟨hlength, hindex, hdecode, fun metrics => ?_⟩
  rw [decode, hdecode]

/-- A message of two fields, compressed and sealed, comes to a receiver that knows one more kind and
    does not compress as the sender does. -/
theorem decode_encode_message :
    let fresh : FieldPacket := .zero ⟨"Message"⟩ [.u32, .bytes]
    let message : FieldPacket := ⟨⟨"Message"⟩, [.u32 7, .bytes [1, 2, 3]]⟩
    let kinds : List FieldPacket := [.zero Ping.kind [.u64], fresh]
    let more : List FieldPacket := [.zero ⟨"Farewell"⟩ []]
    let cipher : Cipher := .sealed (List.replicate 32 9)
    let sender : Codec FieldPacket :=
      ⟨⟨kinds⟩, .zstd, cipher, BufferPool.ofSize scratchCount 64, ⟨3⟩, .standard⟩
    let receiver : Codec FieldPacket := ⟨⟨kinds ++ more⟩, .zstd, cipher, .standard, ⟨0⟩, default⟩
    ∃ frame, (sender.encode message).1 = .ok frame ∧
      frame.length = 3 + Bytes.toNatBE (frame.take 2) ∧ frame[2]?.map UInt8.toNat = some 1 ∧
      receiver.tryDecode frame = .ok (some message) ∧
      ∀ metrics, receiver.decode metrics frame = (some message, metrics) := by
  intro fresh message kinds more cipher sender receiver
  have hkey : cipher.HasKey := List.length_replicate
  have hindex : sender.registry.indexOf? (Packet.kind message) = some 1 := by rfl
  have hmarshal : (sender.marshal message).1 = .ok [0, 0, 0, 7, 0, 3, 1, 2, 3] := by rfl
  obtain ⟨frames, hframes, hfew⟩ :=
    Compressors.brief_standard.zstd [0, 0, 0, 7, 0, 3, 1, 2, 3] (by decide)
  have hcompress : sender.compress [0, 0, 0, 7, 0, 3, 1, 2, 3] = .ok frames := by
    change Compression.compressWith .standard .zstd _ = _
    rw [Compression.compressWith, hframes]
  have hroom : SealedBox.nonceLength + frames.length + SealedBox.tagLength ≤ Frame.maxPayload :=
    Nat.le_trans (Nat.add_le_add_right (Nat.add_le_add_left hfew _) _) (by decide)
  obtain ⟨frame, hframe⟩ :=
    exists_encode (BufferPool.uniform_ofSize _ _) hkey hindex hmarshal hcompress hroom
  have hknown : PacketRegistry.ofList kinds = .ok ⟨kinds⟩ := by rfl
  have hthere : PacketRegistry.ofList (kinds ++ more) = .ok ⟨kinds ++ more⟩ := by rfl
  have hrestores : ∀ data : Bytes, data.length ≤ maxUncompressed →
      Compressors.standard.Restores data := fun data hdata =>
    Compressors.restores_standard (Nat.lt_of_le_of_lt hdata (by decide))
  have hplace : kinds[1]? = some fresh := rfl
  have hkind : Packet.kind fresh = Packet.kind message := rfl
  refine ⟨frame, hframe, decode_encode hknown hthere .zstd hrestores hkey
    (by decide : 64 ≤ maxUncompressed) ⟨3⟩ [] .standard ⟨0⟩ default hplace hkind
    (fun marshaled h => ?_) frame hframe⟩
  obtain rfl := Except.ok.inj (hmarshal.symm.trans h)
  exact ⟨9, by rfl⟩

end Codec
end ShardMesh
