import ShardMesh.Error

/-!
# Frames

A frame is two bytes of payload length, big-endian, one byte naming the kind of packet, and the
payload. A stream of bytes is cut into frames by the announced lengths alone.
-/

namespace ShardMesh.Frame

/-- The length and the kind. -/
def headerLength : Nat := 3

/-- The largest payload that two bytes can announce. -/
def maxPayload : Nat := 65535

/-- The frame of a payload. -/
def assemble (index : UInt8) (payload : Bytes) : Bytes :=
  Bytes.ofNatBE 2 payload.length ++ index :: payload

/-- The payload length that a frame announces. -/
def declaredLength (frame : Bytes) : Nat := Bytes.toNatBE (frame.take 2)

/-- The length of the first frame of a buffer, as far as the bytes announce it. -/
def totalLength (buffer : Bytes) : Nat := headerLength + declaredLength buffer

/-- The first frame of a buffer and the bytes after it, once the frame is complete. A buffer that
holds less than a header is shorter than any frame. -/
def next? (buffer : Bytes) : Option (Bytes × Bytes) :=
  if totalLength buffer ≤ buffer.length then
    some (buffer.take (totalLength buffer), buffer.drop (totalLength buffer))
  else none

theorem length_lt_of_next? {buffer frame rest : Bytes} (h : next? buffer = some (frame, rest)) :
    rest.length < buffer.length := by
  unfold next? at h
  by_cases c : totalLength buffer ≤ buffer.length
  · simp only [c, if_true, Option.some.injEq, Prod.mk.injEq] at h
    rw [← h.2, List.length_drop]
    simp only [totalLength, headerLength] at *
    omega
  · simp [c] at h

/-- All complete frames of a buffer and what is left. -/
def split (buffer : Bytes) : List Bytes × Bytes :=
  match _h : next? buffer with
  | none => ([], buffer)
  | some (frame, rest) =>
    let (frames, left) := split rest
    (frame :: frames, left)
termination_by buffer.length
decreasing_by exact length_lt_of_next? _h

/-- The next frame at the end of the stream: a beginning without its end is an error. -/
def nextAtEnd (buffer : Bytes) : Except ProtocolError (Option (Bytes × Bytes)) :=
  match next? buffer with
  | some found => .ok (some found)
  | none => if buffer.isEmpty then .ok none else .error (.malformed .truncatedFrame)

/-- Appends a frame to outgoing bytes. What is shorter than a header is no frame. -/
def append (frame outgoing : Bytes) : Except ProtocolError Bytes :=
  if frame.length < headerLength then .error .invalidHeader else .ok (outgoing ++ frame)

end ShardMesh.Frame
