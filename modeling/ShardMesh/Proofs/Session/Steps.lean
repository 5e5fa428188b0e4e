import ShardMesh.Session.Basic

/-!
# Steps of reader and writer

Reader and writer of a session wait for two things at once. The reader may come to the stream before it
notices that the transport is closed (`Session.readOn`), and the writer, which takes waiting frames
first, may notice it at a time when frames wait (`Session.flushStep`). What a step changes is the same
in either order, as long as no write fails: `Session.Writes` is all that a writer can do,
`Session.KeepsWriter` what everybody else leaves to it.
-/

namespace ShardMesh

namespace Session

variable {H : Type} [SessionHandler H]

/-! ## The reader -/

/-- A step of the reader that comes to the stream before it notices that the transport is closed. -/
def readOn (h : H) (s : Session) (now : Nat) : Option (Session × H) :=
  match s.phase with
  | .reading _ =>
    match Frame.next? s.received with
    | some (frame, received) =>
      some ({ s with received, phase := .reading (now + s.readTimeout) },
        SessionHandler.onFrame h s.seat frame)
    | none =>
      match s.pipe.readNear with
      | (.data bytes, pipe) => some ({ s with pipe, received := s.received ++ bytes }, h)
      | (.ended, _) =>
        some (s.endReading h now (if s.received.isEmpty then .closed else .protocolException))
      | (.fault _, _) => some (s.endReading h now .reset)
      | (.nothing, _) => none
  | _ => none

/-- As long as the transport is open, a step of the reader is one at the stream. -/
theorem readStep_of_open {h : H} {s : Session}
    (hopen : (SessionHandler.transport h s.seat).closed = false) (now : Nat) :
    s.readStep h now = s.readOn h now := by
  unfold readStep readOn
  cases s.phase with
  | reading deadline =>
    dsimp only
    rw [hopen]
    rfl
  | _ => rfl

/-! ## The writer -/

/-- A step of the writer after it has noticed that the transport is closed: it writes what waits and
then ends. That a write fails is not reported. -/
def flushStep (h : H) (s : Session) : Option (Session × H) :=
  if !s.writing then none
  else if !s.sending.isEmpty then
    match s.pipe.writeNear s.sending with
    | .error _ => some (s.endWriting h false)
    | .ok (rest, pipe) =>
      if rest.length = s.sending.length then none else some ({ s with pipe, sending := rest }, h)
  else
    let t := SessionHandler.transport h s.seat
    match t.queue with
    | frame :: queue =>
      let h := SessionHandler.setTransport h s.seat { t with queue }
      match Frame.append frame [] with
      | .error _ => some (s.endWriting h true)
      | .ok bytes => some ({ s with sending := bytes }, h)
    | [] => some (s.endWriting h true)

/-- Whether the next step of the writer is to fail. -/
def writeFails (h : H) (s : Session) : Bool :=
  if !s.sending.isEmpty then !(s.pipe.writeNear s.sending).isOk
  else
    match (SessionHandler.transport h s.seat).queue with
    | frame :: _ => !(Frame.append frame []).isOk
    | [] => false

/-- On a closed transport the two ways of the writer differ only in what they report. -/
theorem flushStep_eq_writeStep {h : H} {s : Session}
    (hclosed : (SessionHandler.transport h s.seat).closed = true) (hfine : s.writeFails h = false) :
    s.flushStep h = s.writeStep h := by
  unfold writeFails at hfine
  unfold flushStep writeStep
  split
  · rfl
  · split
    · rename_i hsending
      rw [if_pos hsending] at hfine
      cases hwrite : s.pipe.writeNear s.sending with
      | error reason =>
        rw [hwrite] at hfine
        cases hfine
      | ok written => rfl
    · rename_i hsending
      rw [if_neg hsending] at hfine
      dsimp only
      cases hqueue : (SessionHandler.transport h s.seat).queue with
      | nil => exact (if_pos hclosed).symm
      | cons frame queue =>
        rw [hqueue] at hfine
        dsimp only at hfine ⊢
        cases happend : Frame.append frame [] with
        | error e =>
          rw [happend] at hfine
          cases hfine
        | ok bytes => rfl

/-- What a step of the writer that does not fail can be. -/
inductive Writes (h : H) (s : Session) : Session → H → Prop where
  /-- Some bytes of the frame that is being written go to the stream. -/
  | bytes (count : Nat) (hcount : s.sending.drop count ≠ s.sending) :
    Writes h s { s with
      pipe := { s.pipe with toFar := s.pipe.toFar ++ s.sending.take count }
      sending := s.sending.drop count } h
  /-- The writer takes the next frame. -/
  | frame {frame : Bytes} {queue : List Bytes} (hidle : s.sending = [])
      (hqueue : (SessionHandler.transport h s.seat).queue = frame :: queue) :
    Writes h s { s with sending := frame }
      (SessionHandler.setTransport h s.seat { SessionHandler.transport h s.seat with queue })
  /-- Nothing is left, and the writer shuts its side of the stream down. -/
  | finish (hidle : s.sending = []) (hqueue : (SessionHandler.transport h s.seat).queue = [])
      (hclosed : (SessionHandler.transport h s.seat).closed = true) :
    Writes h s (s.endWriting h true).1 (s.endWriting h true).2

theorem writeNear_eq_ok {p p' : Pipe} {bytes rest : Bytes} (h : p.writeNear bytes = .ok (rest, p')) :
    ∃ count, rest = bytes.drop count ∧ p' = { p with toFar := p.toFar ++ bytes.take count } := by
  unfold Pipe.writeNear at h
  split at h
  · cases h
  · split at h <;> cases h
    exact ⟨_, rfl, rfl⟩

theorem append_eq_ok {frame bytes : Bytes} (h : Frame.append frame [] = .ok bytes) : bytes = frame := by
  unfold Frame.append at h
  split at h <;> cases h
  rfl

theorem writes_of_writeStep {h h' : H} {s s' : Session} (hfine : s.writeFails h = false)
    (hstep : s.writeStep h = some (s', h')) : s.writing = true ∧ Writes h s s' h' := by
  unfold writeFails at hfine
  unfold writeStep at hstep
  split at hstep
  · cases hstep
  · rename_i hwriting
    refine ⟨by simpa using hwriting, ?_⟩
    split at hstep
    · rename_i hsending
      rw [if_pos hsending] at hfine
      split at hstep
      · rename_i hwrite
        rw [hwrite] at hfine
        cases hfine
      · rename_i rest pipe hwrite
        split at hstep <;> cases hstep
        rename_i hlength
        obtain ⟨count, rfl, rfl⟩ := writeNear_eq_ok hwrite
        exact .bytes count fun heq => hlength (congrArg List.length heq)
    · rename_i hsending
      have hidle : s.sending = [] := by simpa using hsending
      rw [if_neg hsending] at hfine
      dsimp only at hstep
      split at hstep
      · rename_i frame queue hqueue
        rw [hqueue] at hfine
        dsimp only at hfine
        split at hstep
        · rename_i happend
          rw [happend] at hfine
          cases hfine
        · rename_i bytes happend
          cases hstep
          obtain rfl := append_eq_ok happend
          exact .frame hidle hqueue
      · rename_i hqueue
        split at hstep <;> cases hstep
        exact .finish hidle hqueue ‹_›

/-! What the writer can do as long as it goes on. -/

theorem writeStep_of_room {h : H} {s : Session} (hwriting : s.writing = true) {rest : Bytes}
    {pipe : Pipe} (hwrite : s.pipe.writeNear s.sending = .ok (rest, pipe))
    (hlength : rest.length ≠ s.sending.length) (hsending : s.sending ≠ []) :
    s.writeFails h = false ∧ s.writeStep h = some ({ s with pipe, sending := rest }, h) := by
  have hbusy : (!s.sending.isEmpty) = true := by simpa using hsending
  unfold writeFails writeStep
  rw [hwriting, if_pos hbusy, if_pos hbusy, hwrite]
  exact ⟨rfl, if_neg hlength⟩

theorem writeStep_of_waiting {h : H} {s : Session} (hwriting : s.writing = true)
    (hidle : s.sending = []) {frame : Bytes} {queue : List Bytes}
    (hqueue : (SessionHandler.transport h s.seat).queue = frame :: queue)
    (hframe : Frame.headerLength ≤ frame.length) :
    s.writeFails h = false ∧ s.writeStep h = some ({ s with sending := frame },
      SessionHandler.setTransport h s.seat { SessionHandler.transport h s.seat with queue }) := by
  have happend : Frame.append frame [] = .ok frame := if_neg (Nat.not_lt.mpr hframe)
  unfold writeFails writeStep
  rw [hwriting, hidle]
  dsimp only [List.isEmpty_nil, Bool.not_true, Bool.false_eq_true, if_false]
  rw [hqueue]
  dsimp only
  rw [happend]
  exact ⟨rfl, rfl⟩

theorem writeStep_of_closed {h : H} {s : Session} (hwriting : s.writing = true)
    (hidle : s.sending = []) (hqueue : (SessionHandler.transport h s.seat).queue = [])
    (hclosed : (SessionHandler.transport h s.seat).closed = true) :
    s.writeFails h = false ∧ s.writeStep h = some (s.endWriting h true) := by
  unfold writeFails writeStep
  rw [hwriting, hidle]
  dsimp only [List.isEmpty_nil, Bool.not_true, Bool.false_eq_true, if_false]
  rw [hqueue]
  exact ⟨rfl, if_pos hclosed⟩

/-! ## The others -/

/-- What neither the reader nor the end of a session changes. -/
structure KeepsWriter (s s' : Session) : Prop where
  seat : s'.seat = s.seat
  sending : s'.sending = s.sending
  writing : s'.writing = s.writing
  toFar : s'.pipe.toFar = s.pipe.toFar
  nearFinished : s'.pipe.nearFinished = s.pipe.nearFinished

theorem keepsWriter_readOn {h h' : H} {s s' : Session} {now : Nat}
    (hstep : s.readOn h now = some (s', h')) : s.KeepsWriter s' := by
  unfold readOn at hstep
  split at hstep
  · split at hstep
    · cases hstep
      exact ⟨rfl, rfl, rfl, rfl, rfl⟩
    · split at hstep
      · rename_i bytes pipe hread
        cases hstep
        unfold Pipe.readNear at hread
        split at hread
        · cases hread
        · split at hread
          · cases hread
            exact ⟨rfl, rfl, rfl, rfl, rfl⟩
          · split at hread <;> cases hread
      · cases hstep
        exact ⟨rfl, rfl, rfl, rfl, rfl⟩
      · cases hstep
        exact ⟨rfl, rfl, rfl, rfl, rfl⟩
      · cases hstep
  · cases hstep

theorem keepsWriter_readStep {h h' : H} {s s' : Session} {now : Nat}
    (hstep : s.readStep h now = some (s', h')) : s.KeepsWriter s' := by
  cases hclosed : (SessionHandler.transport h s.seat).closed with
  | false =>
    rw [readStep_of_open hclosed] at hstep
    exact keepsWriter_readOn hstep
  | true =>
    unfold readStep at hstep
    split at hstep
    · rw [if_pos hclosed] at hstep
      cases hstep
      exact ⟨rfl, rfl, rfl, rfl, rfl⟩
    · cases hstep

theorem keepsWriter_endStep {s s' : Session} (hstep : s.endStep = some s') : s.KeepsWriter s' := by
  unfold endStep at hstep
  split at hstep
  · split at hstep <;> cases hstep
    exact ⟨rfl, rfl, rfl, rfl, rfl⟩
  · split at hstep <;> cases hstep
    exact ⟨rfl, rfl, rfl, rfl, rfl⟩
  · cases hstep

theorem keepsWriter_abandon (s : Session) : s.KeepsWriter s.abandon := by
  unfold abandon
  split <;> exact ⟨rfl, rfl, rfl, rfl, rfl⟩

end Session
end ShardMesh
