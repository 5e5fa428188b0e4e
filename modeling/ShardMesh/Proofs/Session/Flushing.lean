import ShardMesh.Proofs.Session.Outflow

/-!
# The end of the writer

Once the transport is closed, only so much is left to be written, and the writer can always go on: it
has bytes to write, or a frame to take, or nothing, and then it shuts its side of the stream down. A
peer that reads what comes has heard everything by then.
-/

namespace ShardMesh

namespace Outflow

variable {H : Type} [SessionHandler H] {x : Outflow H}

namespace Sound

/-- The writer does what it can do, whether it has noticed that the transport is closed or not. -/
theorem writer_step (h : Sound x) {session : Session} {handler : H}
    (hstep : x.session.writeFails x.handler = false ∧
      x.session.writeStep x.handler = some (session, handler)) :
    Step x { x with session, handler } := by
  by_cases hflushing : x.flushing = true
  · refine .flushes hflushing hstep.1 ?_
    rw [Session.flushStep_eq_writeStep (h.flushing hflushing) hstep.1]
    exact hstep.2
  · exact .writes (Bool.eq_false_iff.mpr hflushing) hstep.1 hstep.2

end Sound

/-- The transport is closed, and nothing keeps the writer from writing what waits. -/
structure Closing (x : Outflow H) : Prop where
  closed : x.transport.closed = true
  writeFault : x.session.pipe.writeFault = none
  farGone : x.session.pipe.farGone = false
  capacity : 0 < x.session.pipe.capacity
  framed : ∀ frame ∈ x.transport.queue, Frame.headerLength ≤ frame.length

/-- How far the accepted frames still have to go to the peer. -/
def outstanding (x : Outflow H) : Nat :=
  3 * x.transport.queue.flatten.length + x.transport.queue.length + 2 * x.session.sending.length +
    x.session.pipe.toFar.length

namespace Closing

variable (hx : Closing x) (h : Sound x)

include hx

/-- The peer reads what is in the stream. -/
theorem peer_reads (htoFar : x.session.pipe.toFar ≠ []) :
    ∃ y, Step x y ∧ Closing y ∧ y.outstanding < x.outstanding := by
  have hpipe : x.session.pipe.FromOutside x.session.pipe.toFar { x.session.pipe with toFar := [] } :=
    ⟨(List.append_nil _).symm, rfl⟩
  refine ⟨_, .stream hpipe, ⟨hx.closed, hx.writeFault, hx.farGone, hx.capacity, hx.framed⟩, ?_⟩
  have hpos : 0 < x.session.pipe.toFar.length := List.length_pos_iff.mpr htoFar
  exact Nat.add_lt_add_left hpos _

include h

/-- There is room, and the writer writes some of the frame it is at. -/
theorem writes_bytes (htoFar : x.session.pipe.toFar = []) (hwriting : x.session.writing = true)
    (hsending : x.session.sending ≠ []) :
    ∃ y, Step x y ∧ Closing y ∧ y.outstanding < x.outstanding := by
  have hnear : x.session.pipe.nearFinished = false := by rw [h.nearFinished, hwriting]; rfl
  have hwrite := Pipe.writeNear_of_open hx.writeFault hx.farGone hnear x.session.sending
  rw [htoFar, List.length_nil, Nat.sub_zero] at hwrite
  have hpos : 0 < x.session.sending.length := List.length_pos_iff.mpr hsending
  have hcapacity := hx.capacity
  have hless : (x.session.sending.drop x.session.pipe.capacity).length ≠ x.session.sending.length := by
    rw [List.length_drop]
    omega
  refine ⟨_, h.writer_step (Session.writeStep_of_room hwriting hwrite hless hsending),
    ⟨hx.closed, hx.writeFault, hx.farGone, hx.capacity, hx.framed⟩, ?_⟩
  show 3 * x.transport.queue.flatten.length + x.transport.queue.length +
    2 * (x.session.sending.drop x.session.pipe.capacity).length +
      ([] ++ x.session.sending.take x.session.pipe.capacity).length < x.outstanding
  unfold outstanding
  rw [List.nil_append, List.length_drop, List.length_take, htoFar, List.length_nil]
  omega

/-- The writer takes the next frame. -/
theorem takes_frame (hwriting : x.session.writing = true) (hsending : x.session.sending = [])
    {frame : Bytes} {queue : List Bytes} (hqueue : x.transport.queue = frame :: queue) :
    ∃ y, Step x y ∧ Closing y ∧ y.outstanding < x.outstanding := by
  have hframed := hx.framed
  rw [hqueue] at hframed
  obtain ⟨hframe, hrest⟩ := List.forall_mem_cons.mp hframed
  obtain ⟨y, hstep, hsession, htransport⟩ : ∃ y, Step x y ∧
      y.session = { x.session with sending := frame } ∧ y.transport = { x.transport with queue } :=
    ⟨_, h.writer_step (Session.writeStep_of_waiting hwriting hsending hqueue hframe), rfl, h.seated _⟩
  refine ⟨y, hstep, ⟨?_, ?_, ?_, ?_, ?_⟩, ?_⟩
  · rw [htransport]
    exact hx.closed
  · rw [hsession]
    exact hx.writeFault
  · rw [hsession]
    exact hx.farGone
  · rw [hsession]
    exact hx.capacity
  · rw [htransport]
    exact hrest
  · unfold outstanding
    rw [hsession, htransport, hqueue, hsending, List.flatten_cons, List.length_append,
      List.length_cons, List.length_nil]
    have hpos : 0 < frame.length := Nat.lt_of_lt_of_le (by decide) hframe
    dsimp only
    omega

/-- So everything goes to the peer, and the writer shuts its side down. -/
theorem exists_run [LawfulHandler H] :
    ∃ y, Run x y ∧ y.session.pipe.nearFinished = true ∧ y.heard = x.accepted.flatten := by
  induction hn : x.outstanding using Nat.strongRecOn generalizing x with
  | ind n ih =>
    -- Whatever is nearer to the peer goes first: the bytes in the stream, then the frame that is being
    -- written, then the frames that wait.
    have hgoOn (hnext : ∃ y, Step x y ∧ Closing y ∧ y.outstanding < x.outstanding) :
        ∃ z, Run x z ∧ z.session.pipe.nearFinished = true ∧ z.heard = x.accepted.flatten := by
      obtain ⟨y, hstep, hy, hless⟩ := hnext
      obtain ⟨z, hrun, hnear, hheard⟩ := ih _ (hn ▸ hless) hy (h.step hstep) rfl
      rw [(h.closed_step hstep hx.closed).2] at hheard
      exact ⟨z, .head hstep hrun, hnear, hheard⟩
    have hconserved := h.conserved
    by_cases htoFar : x.session.pipe.toFar = []
    · cases hwriting : x.session.writing with
      | false =>
        obtain ⟨-, hsending, hqueue⟩ := h.idle hwriting
        rw [htoFar, hsending, hqueue] at hconserved
        refine ⟨x, .refl, by rw [h.nearFinished, hwriting]; rfl, ?_⟩
        simpa using hconserved
      | true =>
        by_cases hsending : x.session.sending = []
        · cases hqueue : x.transport.queue with
          | nil =>
            have hstep := h.writer_step (Session.writeStep_of_closed hwriting hsending hqueue hx.closed)
            refine ⟨_, .single hstep, (h.step hstep).nearFinished, ?_⟩
            rw [htoFar, hsending, hqueue] at hconserved
            simpa using hconserved
          | cons frame queue => exact hgoOn (hx.takes_frame h hwriting hsending hqueue)
        · exact hgoOn (hx.writes_bytes h htoFar hwriting hsending)
    · exact hgoOn (hx.peer_reads htoFar)

end Closing
end Outflow
end ShardMesh
