import ShardMesh.Codec
import ShardMesh.Proofs.Numbers

/-!
# Framing

A stream is cut into frames by its own bytes: how the bytes arrive has no influence
(`receive_eq_split`), nothing is lost (`split_flatten`), and what is left over is no frame yet
(`split_left`). What the framer lets pass is never refused for its framing afterwards
(`readPayload_error`).
-/

namespace ShardMesh.Frame

/-! ## The first frame -/

/-- The header announces at least itself. -/
theorem headerLength_le_total (buffer : Bytes) : headerLength ≤ totalLength buffer := by
  unfold totalLength
  omega

/-- What follows the two length bytes does not change the announced length. -/
theorem declaredLength_append {buffer : Bytes} (h : 2 ≤ buffer.length) (more : Bytes) :
    declaredLength (buffer ++ more) = declaredLength buffer := by
  unfold declaredLength
  rw [List.take_append_of_le_length h]

theorem totalLength_append {buffer : Bytes} (h : 2 ≤ buffer.length) (more : Bytes) :
    totalLength (buffer ++ more) = totalLength buffer := by
  unfold totalLength
  rw [declaredLength_append h]

/-- There is no first frame exactly as long as the announced length is not reached. -/
theorem next?_eq_none {buffer : Bytes} : next? buffer = none ↔ buffer.length < totalLength buffer := by
  unfold next?
  split
  · simpa using ‹totalLength buffer ≤ buffer.length›
  · simpa using ‹¬ totalLength buffer ≤ buffer.length›

/-- The first frame and the bytes after it make up the buffer, and the frame has the length that it
    announces. -/
theorem next?_eq_some {buffer frame rest : Bytes} (h : next? buffer = some (frame, rest)) :
    frame ++ rest = buffer ∧ frame.length = totalLength frame := by
  unfold next? at h
  split at h
  · rename_i hle
    obtain ⟨rfl, rfl⟩ := Prod.mk.inj (Option.some.inj h)
    have hlen : (buffer.take (totalLength buffer)).length = totalLength buffer := by
      rw [List.length_take, Nat.min_eq_left hle]
    refine ⟨List.take_append_drop .., ?_⟩
    have hheader := headerLength_le_total buffer
    have htwo : 2 ≤ (buffer.take (totalLength buffer)).length := by
      rw [hlen]; exact Nat.le_trans (by decide) hheader
    have happ := totalLength_append htwo (buffer.drop (totalLength buffer))
    rw [List.take_append_drop] at happ
    rw [hlen, ← happ]
  · cases h

/-- A buffer that starts with a frame gives this frame. -/
theorem next?_frame_append {frame : Bytes} (h : frame.length = totalLength frame) (rest : Bytes) :
    next? (frame ++ rest) = some (frame, rest) := by
  have hheader := headerLength_le_total frame
  have htwo : 2 ≤ frame.length := by rw [h]; exact Nat.le_trans (by decide) hheader
  unfold next?
  rw [totalLength_append htwo, ← h, List.take_left, List.drop_left, List.length_append]
  exact if_pos (Nat.le_add_right ..)

/-! ## All frames -/

theorem split_of_none {buffer : Bytes} (h : next? buffer = none) : split buffer = ([], buffer) := by
  rw [split]
  split
  · rfl
  · rename_i hsome
    rw [h] at hsome
    cases hsome

theorem split_of_some {buffer frame rest : Bytes} (h : next? buffer = some (frame, rest)) :
    split buffer = (frame :: (split rest).1, (split rest).2) := by
  rw [split]
  split
  · rename_i hnone
    rw [h] at hnone
    cases hnone
  · rename_i hsome
    obtain ⟨rfl, rfl⟩ := Prod.mk.inj (Option.some.inj (hsome.symm.trans h))
    rfl

/-- Frames of a buffer, one after the other: either there is none yet, or there is a first one and
    the same holds of the bytes after it. -/
theorem split_induction {motive : Bytes → Prop}
    (none : ∀ buffer, next? buffer = none → motive buffer)
    (some : ∀ buffer frame rest, next? buffer = some (frame, rest) → motive rest → motive buffer)
    (buffer : Bytes) : motive buffer := by
  generalize hn : buffer.length = n
  induction n using Nat.strongRecOn generalizing buffer with
  | ind n ih =>
    cases h : next? buffer with
    | none => exact none buffer h
    | some found =>
      have hlt := length_lt_of_next? h
      exact some buffer found.1 found.2 h (ih _ (hn ▸ hlt) found.2 rfl)

/-- Nothing is lost: the frames and what is left make up the buffer. -/
theorem split_flatten (buffer : Bytes) : (split buffer).1.flatten ++ (split buffer).2 = buffer := by
  induction buffer using split_induction with
  | none buffer h => rw [split_of_none h]; rfl
  | some buffer frame rest h ih =>
    rw [split_of_some h, List.flatten_cons, List.append_assoc, ih]
    exact (next?_eq_some h).1

/-- Every frame has the length that it announces. -/
theorem split_frame_length {buffer frame : Bytes} (h : frame ∈ (split buffer).1) :
    frame.length = totalLength frame := by
  induction buffer using split_induction with
  | none buffer hnone => rw [split_of_none hnone] at h; cases h
  | some buffer first rest hsome ih =>
    rw [split_of_some hsome] at h
    rcases List.mem_cons.mp h with rfl | h
    · exact (next?_eq_some hsome).2
    · exact ih h

/-- What is left holds no complete frame. -/
theorem split_left (buffer : Bytes) : next? (split buffer).2 = none := by
  induction buffer using split_induction with
  | none buffer h => rw [split_of_none h]; exact h
  | some buffer frame rest h ih => rw [split_of_some h]; exact ih

/-- Whole frames, and what holds none after them, are what a buffer is split into. -/
theorem split_flatten_append {frames : List Bytes} {left : Bytes}
    (hframes : ∀ frame ∈ frames, frame.length = totalLength frame) (hleft : next? left = none) :
    split (frames.flatten ++ left) = (frames, left) := by
  induction frames with
  | nil => exact split_of_none hleft
  | cons frame frames ih =>
    have hframe := hframes frame List.mem_cons_self
    have hmore := ih fun other hother => hframes other (List.mem_cons_of_mem _ hother)
    rw [List.flatten_cons, List.append_assoc, split_of_some (next?_frame_append hframe _), hmore]

/-- Splitting a buffer to which bytes are appended goes on where splitting the buffer stopped. -/
theorem split_append (buffer more : Bytes) :
    split (buffer ++ more) =
      ((split buffer).1 ++ (split ((split buffer).2 ++ more)).1,
        (split ((split buffer).2 ++ more)).2) := by
  induction buffer using split_induction with
  | none buffer h => rw [split_of_none h]; rfl
  | some buffer frame rest h ih =>
    obtain ⟨hjoin, hlen⟩ := next?_eq_some h
    have hnext : next? (buffer ++ more) = some (frame, rest ++ more) := by
      rw [← hjoin, List.append_assoc]
      exact next?_frame_append hlen (rest ++ more)
    rw [split_of_some hnext, split_of_some h, ih]
    rfl

/-! ## Bytes in chunks -/

/-- Appends chunks to a buffer one by one and takes all complete frames off after each of them: the
    frames in order, and the bytes that are left in the end. -/
def receive (buffer : Bytes) : (chunks : List Bytes) → List Bytes × Bytes
  | [] => ([], buffer)
  | chunk :: chunks =>
    let (frames, left) := split (buffer ++ chunk)
    let (more, left) := receive left chunks
    (frames ++ more, left)

/-- However bytes are cut into chunks, the frames are those of all bytes at once. The buffer must
    hold no complete frame before the first chunk. -/
theorem receive_eq_split {buffer : Bytes} (chunks : List Bytes) (h : next? buffer = none) :
    receive buffer chunks = split (buffer ++ chunks.flatten) := by
  induction chunks generalizing buffer with
  | nil => rw [List.flatten_nil, List.append_nil, split_of_none h]; rfl
  | cons chunk chunks ih =>
    rw [List.flatten_cons, ← List.append_assoc, split_append, ← ih (split_left _)]
    rfl

/-! ## The end of the stream -/

/-- At the end of the stream a buffer without a complete frame is fine if it is empty, and a frame
    cut short otherwise. -/
theorem nextAtEnd_left {buffer : Bytes} (h : next? buffer = none) :
    nextAtEnd buffer = if buffer = [] then .ok none else .error (.malformed .truncatedFrame) := by
  unfold nextAtEnd
  rw [h]
  cases buffer with
  | nil => rfl
  | cons b buffer => rfl

end ShardMesh.Frame

namespace ShardMesh

/-- Decompression has one way to refuse data. -/
theorem Compression.decompress_error {c : Compression} {data : Bytes} {e : ProtocolError}
    (h : c.decompress data = .error e) : e = .decompressionFailure := by
  unfold decompress at h
  dsimp only at h
  split at h
  · cases h
  · cases h
    rfl

/-- Decryption has one way to refuse data. -/
theorem Cipher.decrypt_error {c : Cipher} {data : Bytes} {e : ProtocolError}
    (h : c.decrypt data = .error e) : e = .decryptionFailure := by
  cases c with
  | plain => cases h
  | sealed key =>
    unfold decrypt at h
    dsimp only at h
    split at h
    · cases h
      rfl
    · split at h <;> cases h
      rfl

namespace Codec

/-- The stages of a codec have two ways to refuse a payload. -/
theorem ofPayload_error {P : Type} {c : Codec P} {payload : Bytes} {e : ProtocolError}
    (h : c.ofPayload payload = .error e) : e = .decryptionFailure ∨ e = .decompressionFailure := by
  unfold ofPayload at h
  split at h
  · exact .inr (Compression.decompress_error h)
  · rename_i hdecrypt
    cases h
    exact .inl (Cipher.decrypt_error hdecrypt)

variable {P : Type} [Packet P]

/-- The packet that a payload stands for, or why there is none. Nothing about frames is left to be
    checked here. -/
def readPayload (c : Codec P) (index : UInt8) (payload : Bytes) : Except ProtocolError P :=
  match c.registry.instantiate? index with
  | none => .error (.unknownPacketType index)
  | some fresh =>
    match c.ofPayload payload with
    | .error e => .error e
    | .ok plain =>
      match Packet.unmarshal fresh plain 0 plain.length with
      | (.error e, _) => .error e
      | (.ok _, packet) => .ok packet

/-- Decoding a frame whose payload is as long as announced is reading its payload. -/
theorem tryDecode_complete (c : Codec P) {a b index : UInt8} {payload : Bytes}
    (h : payload.length = Frame.declaredLength (a :: b :: index :: payload)) :
    c.tryDecode (a :: b :: index :: payload) = (c.readPayload index payload).map some := by
  have htake : payload.take (Frame.declaredLength (a :: b :: index :: payload)) = payload := by
    rw [← h, List.take_length]
  have hle : ¬ payload.length < Frame.declaredLength (a :: b :: index :: payload) := by omega
  simp only [tryDecode, readPayload, if_neg hle, htake]
  cases c.registry.instantiate? index with
  | none => rfl
  | some fresh =>
    cases c.ofPayload payload with
    | error e => rfl
    | ok plain =>
      dsimp only
      rcases Packet.unmarshal fresh plain 0 plain.length with ⟨_ | _, packet⟩ <;> rfl

/-- A payload is refused because nobody knows its kind, because a stage fails, or because the packet
    refuses it. -/
theorem readPayload_error {c : Codec P} {index : UInt8} {payload : Bytes} {e : ProtocolError}
    (h : c.readPayload index payload = .error e) :
    e = .unknownPacketType index ∨ e = .decryptionFailure ∨ e = .decompressionFailure ∨
      ∃ fresh plain, c.registry.instantiate? index = some fresh ∧ c.ofPayload payload = .ok plain ∧
        (Packet.unmarshal fresh plain 0 plain.length).1 = .error e := by
  unfold readPayload at h
  split at h
  · cases h
    exact .inl rfl
  · rename_i fresh hfresh
    split at h
    · cases h
      rename_i hstage
      rcases ofPayload_error hstage with h | h
      · exact .inr (.inl h)
      · exact .inr (.inr (.inl h))
    · rename_i plain hplain
      split at h <;> cases h
      rename_i hread
      exact .inr (.inr (.inr ⟨fresh, plain, hfresh, hplain, by rw [hread]⟩))

/-- Bytes that are as long as they announce are a header with a payload of the announced length. -/
theorem exists_header_of_total {frame : Bytes} (h : frame.length = Frame.totalLength frame) :
    ∃ a b index payload, frame = a :: b :: index :: payload ∧
      payload.length = Frame.declaredLength frame := by
  have hheader := Frame.headerLength_le_total frame
  match frame, h with
  | [], h | [_], h | [_, _], h =>
    rw [← h] at hheader
    exact absurd hheader (by simp [Frame.headerLength])
  | a :: b :: index :: payload, h =>
    refine ⟨a, b, index, payload, rfl, ?_⟩
    simp only [Frame.totalLength, Frame.headerLength, List.length_cons] at h
    omega

/-- A stream may come in any chunks: the frames and what is left over are those of the stream in one
    piece. Together they are the stream; each frame is as long as it announces; what is left over is
    too short for a frame, and at the end of the stream it is accepted exactly if it is empty. No
    such frame is refused for its framing: an error of decoding is an unknown kind, the failure of a
    stage, or the answer of the packet that reads the payload. -/
theorem receive_lossless (c : Codec P) (chunks : List Bytes) :
    let (frames, left) := Frame.receive [] chunks
    (frames, left) = Frame.receive [] [chunks.flatten] ∧
    frames.flatten ++ left = chunks.flatten ∧
    (∀ frame ∈ frames, frame.length = 3 + Bytes.toNatBE (frame.take 2)) ∧
    (left.length < 3 ∨ left.length < 3 + Bytes.toNatBE (left.take 2)) ∧
    Frame.nextAtEnd left =
      (if left = [] then .ok none else .error (.malformed .truncatedFrame)) ∧
    ∀ frame ∈ frames, ∃ index payload, frame.drop 2 = index :: payload ∧
      payload.length = Frame.declaredLength frame ∧
      ∀ e, c.tryDecode frame = .error e →
        e = .unknownPacketType index ∨ e = .decryptionFailure ∨ e = .decompressionFailure ∨
        ∃ fresh plain, c.registry.instantiate? index = some fresh ∧
          c.ofPayload payload = .ok plain ∧
          (Packet.unmarshal fresh plain 0 plain.length).1 = .error e := by
  have hnone : Frame.next? [] = none := by decide
  have hpieces := Frame.receive_eq_split chunks hnone
  have hwhole := Frame.receive_eq_split [chunks.flatten] hnone
  rw [List.nil_append] at hpieces
  rw [List.nil_append, List.flatten_singleton] at hwhole
  rw [hwhole, hpieces]
  have hleft := Frame.split_left chunks.flatten
  refine ⟨rfl, Frame.split_flatten _, fun frame hframe => Frame.split_frame_length hframe,
    .inr (Frame.next?_eq_none.mp hleft), Frame.nextAtEnd_left hleft, fun frame hframe => ?_⟩
  obtain ⟨a, b, index, payload, rfl, hlen⟩ :=
    exists_header_of_total (Frame.split_frame_length hframe)
  refine ⟨index, payload, rfl, hlen, fun e he => ?_⟩
  rw [tryDecode_complete c hlen] at he
  cases hread : c.readPayload index payload with
  | ok packet => rw [hread] at he; cases he
  | error e' =>
    rw [hread] at he
    cases he
    exact readPayload_error hread

end Codec
end ShardMesh
