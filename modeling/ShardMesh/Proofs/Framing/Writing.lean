import ShardMesh.Proofs.Attempts
import ShardMesh.Proofs.RoundTrip

/-!
# Writing frames

The writer takes every string that is long enough for a header, and puts it behind the bytes that wait.
The reader cuts where the headers announce it. The two agree where the strings are as long as they
announce themselves, as all frames of packets are; from the first string on that is not, the reader and
the writer are out of step (`read_back_iff_whole`).
-/

namespace ShardMesh.Frame

/-- Writes a frame behind the bytes that wait. -/
def write (outgoing frame : Bytes) : Except ProtocolError Bytes := append frame outgoing

theorem write_of_short {frame : Bytes} (h : frame.length < headerLength) (outgoing : Bytes) :
    write outgoing frame = .error .invalidHeader := if_pos h

theorem write_of_header {frame : Bytes} (h : headerLength ≤ frame.length) (outgoing : Bytes) :
    write outgoing frame = .ok (outgoing ++ frame) := if_neg (Nat.not_lt.mpr h)

/-- What is long enough for a header is written in order, and nothing else is. -/
theorem attempts_write (outgoing : Bytes) (strings : List Bytes) :
    attempts write outgoing strings =
      (strings.map fun frame => if frame.length < headerLength then .error .invalidHeader else .ok (),
        outgoing ++ (strings.filter (headerLength ≤ ·.length)).flatten) := by
  induction strings generalizing outgoing with
  | nil => rw [attempts, List.map_nil, List.filter_nil, List.flatten_nil, List.append_nil]
  | cons frame strings ih =>
    rw [List.map_cons]
    by_cases h : frame.length < headerLength
    · rw [attempts_cons_of_error (write_of_short h outgoing), if_pos h,
        List.filter_cons_of_neg (by simpa using h), ih]
    · have hheader := Nat.not_lt.mp h
      rw [attempts_cons_of_ok (write_of_header hheader outgoing), if_neg h,
        List.filter_cons_of_pos (by simpa using hheader), ih, List.flatten_cons, List.append_assoc]

/-- Strings come back as they were written exactly if each of them is as long as it announces. -/
theorem split_flatten_eq_iff {frames : List Bytes} :
    split frames.flatten = (frames, []) ↔ ∀ frame ∈ frames, frame.length = totalLength frame := by
  constructor
  · intro h frame hframe
    -- what is read is always as long as it announces
    have hread : frame ∈ (split frames.flatten).1 := by rwa [h]
    exact split_frame_length hread
  · intro h
    have hnone : next? [] = none := next?_eq_none.mpr (by decide)
    have hsplit := split_flatten_append h hnone
    rwa [List.append_nil] at hsplit

/-- The first string that is not as long as it announces does not come back, those before it do. -/
theorem split_of_not_whole {before after : List Bytes} {frame : Bytes}
    (hbefore : ∀ other ∈ before, other.length = totalLength other)
    (h : frame.length ≠ totalLength frame) :
    before <+: (split (before ++ frame :: after).flatten).1 ∧
      frame ∉ (split (before ++ frame :: after).flatten).1 := by
  refine ⟨?_, fun hread => h (split_frame_length hread)⟩
  rw [List.flatten_append, split_append, split_flatten_eq_iff.mpr hbefore]
  exact List.prefix_append ..

end ShardMesh.Frame

namespace ShardMesh.Codec

variable {P : Type} [Packet P]

/-- The frame of a packet is as long as it announces, whatever the codec did before. -/
theorem totalLength_of_encode {c : Codec P} {packet : P} {frame : Bytes}
    (h : (c.encode packet).1 = .ok frame) : frame.length = Frame.totalLength frame := by
  unfold encode at h
  split at h
  · cases h
  · split at h
    · cases h
    · dsimp only at h
      split at h
      · cases h
      · split at h
        · cases h
        · rename_i hfits
          cases h
          rw [Frame.length_assemble, Frame.totalLength,
            Frame.declaredLength_assemble (Nat.not_lt.mp hfits)]

end ShardMesh.Codec

namespace ShardMesh.Frame

/-- What was written is read back exactly if it is made of whole frames.

Of strings that are written one after the other, those without room for a header are refused, which
leaves the bytes as they are, and the others are all accepted. They come back, and nothing is left,
exactly if each of them is as long as its first two bytes announce. Where one is not, those before it
come back and it does not. The frames of packets are as long as they announce, whatever codec made
them. -/
theorem read_back_iff_whole (strings : List Bytes) :
    let accepted := strings.filter (3 ≤ ·.length)
    (∀ outgoing, attempts write outgoing strings =
      (strings.map fun frame => if frame.length < 3 then .error .invalidHeader else .ok (),
        outgoing ++ accepted.flatten)) ∧
    (split accepted.flatten = (accepted, []) ↔
      ∀ frame ∈ accepted, frame.length = 3 + Bytes.toNatBE (frame.take 2)) ∧
    (∀ before frame after, accepted = before ++ frame :: after →
      (∀ other ∈ before, other.length = 3 + Bytes.toNatBE (other.take 2)) →
      frame.length ≠ 3 + Bytes.toNatBE (frame.take 2) →
      before <+: (split accepted.flatten).1 ∧ frame ∉ (split accepted.flatten).1) ∧
    ∀ (P : Type) [Packet P] (c : Codec P) (packet : P) (frame : Bytes),
      (c.encode packet).1 = .ok frame → frame.length = 3 + Bytes.toNatBE (frame.take 2) := by
  intro accepted
  refine ⟨fun outgoing => attempts_write outgoing strings, split_flatten_eq_iff, ?_, ?_⟩
  · intro before frame after haccepted hbefore hframe
    rw [haccepted]
    exact split_of_not_whole hbefore hframe
  · intro P _ c packet frame hframe
    exact Codec.totalLength_of_encode hframe

/-- A string without a header between two frames is refused, and the frames come back; with a string
    that announces a byte too many between them only the first does. -/
theorem first_of_three_read_back :
    let whole : List Bytes := [[0, 1, 7, 0xab], [0, 1], [0, 0, 1]]
    let torn : List Bytes := [[0, 1, 7, 0xab], [0, 2, 0, 0xab], [0, 0, 1]]
    attempts write [5] whole =
      ([.ok (), .error .invalidHeader, .ok ()], [5, 0, 1, 7, 0xab, 0, 0, 1]) ∧
    split [0, 1, 7, 0xab, 0, 0, 1] = ([[0, 1, 7, 0xab], [0, 0, 1]], []) ∧
    [[0, 1, 7, 0xab]] <+: (split torn.flatten).1 ∧ [0, 2, 0, 0xab] ∉ (split torn.flatten).1 := by
  intro whole torn
  obtain ⟨hwrite, hback, -, -⟩ := read_back_iff_whole whole
  obtain ⟨-, -, htorn, -⟩ := read_back_iff_whole torn
  refine ⟨hwrite [5], hback.mpr (by decide), ?_⟩
  exact htorn [[0, 1, 7, 0xab]] [0, 2, 0, 0xab] [[0, 0, 1]] (by decide) (by decide) (by decide)

/-- A payload that is one byte shorter than announced takes the first byte of the next frame, and the
    next frame is not found: both strings were accepted. -/
theorem next_frame_swallowed :
    let strings : List Bytes := [[0, 2, 0, 0xab], [0, 0, 1]]
    attempts write [] strings = ([.ok (), .ok ()], [0, 2, 0, 0xab, 0, 0, 1]) ∧
    split [0, 2, 0, 0xab, 0, 0, 1] = ([[0, 2, 0, 0xab, 0]], [0, 1]) ∧
    ¬ ∀ strings : List Bytes, (∀ answer ∈ (attempts write [] strings).1, answer = .ok ()) →
      split (attempts write [] strings).2 = (strings, []) := by
  intro strings
  have hwritten : attempts write [] strings = ([.ok (), .ok ()], [0, 2, 0, 0xab, 0, 0, 1]) := by rfl
  have hread : split [0, 2, 0, 0xab, 0, 0, 1] = ([[0, 2, 0, 0xab, 0]], [0, 1]) := by
    have hwhole : ∀ frame ∈ [[0, 2, 0, 0xab, 0]], frame.length = totalLength frame := by decide
    have hleft : next? [0, 1] = none := by decide
    exact split_flatten_append hwhole hleft
  refine ⟨hwritten, hread, fun hall => ?_⟩
  have hback := hall strings (by rw [hwritten]; simp)
  rw [hwritten, hread] at hback
  revert hback
  decide

end ShardMesh.Frame
