import Mathlib.Logic.Relation
import ShardMesh.Proofs.Session.Conversation
import ShardMesh.Proofs.Session.Handling
import ShardMesh.Proofs.Session.Steps

/-!
# Where accepted frames go

While a session goes on, frames are submitted to its transport and the transport is closed, from
wherever; the peer does what it likes with the far end of the stream; reader and writer take their
steps. All that may come in any order. What was accepted is at any time on its way in the order of
acceptance: heard by the peer, in the stream, being written, or waiting (`Sound.conserved`). The writer
shuts its side down only when the transport is closed, so that nothing more is accepted, and nothing
waits any longer (`Sound.idle`).

A submission is one step here: that the transport is not closed is seen and the frame is queued at
once. Left out is what ends the writer by force: a failing write, and the deadline at the end.
-/

namespace ShardMesh

open SessionHandler (Seated Uses)

/-- What may happen to a stream from outside: the far end reads what comes first in it, and only the
near end writes to the far end, or shuts that direction down. -/
structure Pipe.FromOutside (p : Pipe) (read : Bytes) (p' : Pipe) : Prop where
  toFar : p.toFar = read ++ p'.toFar
  nearFinished : p'.nearFinished = p.nearFinished

/-- A session with what has become of the frames that were submitted to its transport. -/
structure Outflow (H : Type) where
  session : Session
  handler : H
  /-- Whether the writer has noticed that the transport is closed. -/
  flushing : Bool := false
  /-- The frames that were accepted, in order. -/
  accepted : List Bytes
  /-- What the peer has read. -/
  heard : Bytes := []

namespace Outflow

variable {H : Type} [SessionHandler H]

/-- The transport of the session. -/
def transport (x : Outflow H) : Transport := SessionHandler.transport x.handler x.session.seat

/-- What was written to the stream. -/
def written (x : Outflow H) : Bytes := x.heard ++ x.session.pipe.toFar

/-- A session that has just begun. -/
def begin (s : Session) (h : H) : Outflow H :=
  { session := s, handler := h, accepted := (SessionHandler.transport h s.seat).queue }

/-- What can happen next. -/
inductive Step : Outflow H → Outflow H → Prop where
  /-- Somebody submits frames to the transport, or closes it. To submit a frame is to see that the
      transport is open and to queue the frame, in one. -/
  | uses {x : Outflow H} {frames : List Bytes} {handler : H}
      (huses : Uses x.session.seat x.handler frames handler) :
    Step x { x with handler, accepted := x.accepted ++ frames }
  /-- The peer writes, reads, finishes or leaves, or the stream breaks. -/
  | stream {x : Outflow H} {read : Bytes} {pipe : Pipe} (hpipe : x.session.pipe.FromOutside read pipe) :
    Step x { x with session := { x.session with pipe }, heard := x.heard ++ read }
  | reads {x : Outflow H} {now : Nat} {session : Session} {handler : H} {frames : List Bytes}
      (hstep : x.session.readStep x.handler now = some (session, handler))
      (huses : Uses x.session.seat x.handler frames handler) :
    Step x { x with session, handler, accepted := x.accepted ++ frames }
  | readsOn {x : Outflow H} {now : Nat} {session : Session} {handler : H} {frames : List Bytes}
      (hstep : x.session.readOn x.handler now = some (session, handler))
      (huses : Uses x.session.seat x.handler frames handler) :
    Step x { x with session, handler, accepted := x.accepted ++ frames }
  /-- No frame has arrived in time. -/
  | lapses {x : Outflow H} {deadline now : Nat} {session : Session} {handler : H} {frames : List Bytes}
      (hphase : x.session.phase = .reading deadline)
      (hstep : x.session.endReading x.handler now .readTimeout = (session, handler))
      (huses : Uses x.session.seat x.handler frames handler) :
    Step x { x with session, handler, accepted := x.accepted ++ frames }
  | writes {x : Outflow H} {session : Session} {handler : H} (hflushing : x.flushing = false)
      (hfine : x.session.writeFails x.handler = false)
      (hstep : x.session.writeStep x.handler = some (session, handler)) :
    Step x { x with session, handler }
  /-- Between two frames, the writer notices that the transport is closed. -/
  | notices {x : Outflow H} (hclosed : x.transport.closed = true) (hidle : x.session.sending = []) :
    Step x { x with flushing := true }
  | flushes {x : Outflow H} {session : Session} {handler : H} (hflushing : x.flushing = true)
      (hfine : x.session.writeFails x.handler = false)
      (hstep : x.session.flushStep x.handler = some (session, handler)) :
    Step x { x with session, handler }
  /-- The reader is broken off. -/
  | abandons {x : Outflow H} : Step x { x with session := x.session.abandon }
  /-- Neither reader nor writer goes on. -/
  | ends {x : Outflow H} {session : Session} (hstep : x.session.endStep = some session) :
    Step x { x with session }

/-- What can happen, one thing after the other. -/
abbrev Run : Outflow H → Outflow H → Prop := Relation.ReflTransGen Step

/-- What is accepted later comes behind. -/
theorem accepted_of_run {x y : Outflow H} (hrun : Run x y) : x.accepted <+: y.accepted := by
  induction hrun with
  | refl => exact List.prefix_rfl
  | tail _ hstep ih =>
    refine ih.trans ?_
    cases hstep with
    | uses | reads | readsOn | lapses => exact List.prefix_append ..
    | _ => exact List.prefix_rfl

/-! ## What the reader does to the transport -/

section Reader

variable [LawfulHandler H] {h h' : H} {s s' : Session}

theorem exists_uses_endReading (hseated : Seated h s.seat) (now : Nat) (reason : DisconnectReason) :
    ∃ frames, Uses s.seat h frames (s.endReading h now reason).2 := by
  have hclose : Uses s.seat h [] (SessionHandler.setTransport h s.seat
      (SessionHandler.transport h s.seat).close) := by
    refine ⟨LawfulHandler.setTransport _ hseated, ?_⟩
    rw [hseated]
    exact .close (.nothing _)
  obtain ⟨frames, hclosed⟩ := LawfulHandler.onClosed reason hclose.seated
  exact ⟨_, hclose.trans hclosed⟩

theorem exists_uses_readOn (hseated : Seated h s.seat) {now : Nat}
    (hstep : s.readOn h now = some (s', h')) : ∃ frames, Uses s.seat h frames h' := by
  unfold Session.readOn at hstep
  split at hstep
  · split at hstep
    · cases hstep
      exact LawfulHandler.onFrame _ hseated
    · split at hstep
      · cases hstep
        exact ⟨[], .refl hseated⟩
      · cases hstep
        exact exists_uses_endReading hseated now _
      · cases hstep
        exact exists_uses_endReading hseated now _
      · cases hstep
  · cases hstep

theorem exists_uses_readStep (hseated : Seated h s.seat) {now : Nat}
    (hstep : s.readStep h now = some (s', h')) : ∃ frames, Uses s.seat h frames h' := by
  cases hclosed : (SessionHandler.transport h s.seat).closed with
  | false =>
    rw [Session.readStep_of_open hclosed] at hstep
    exact exists_uses_readOn hseated hstep
  | true =>
    unfold Session.readStep at hstep
    split at hstep
    · rw [if_pos hclosed] at hstep
      cases hstep
      exact exists_uses_endReading hseated now _
    · cases hstep

end Reader

/-! ## What is always so -/

/-- What is so at any time. -/
structure Sound (x : Outflow H) : Prop where
  seated : Seated x.handler x.session.seat
  /-- The bytes of the accepted frames, in order: those that were heard, those in the stream, those of
  the frame that is being written, and those of the frames that wait. -/
  conserved : x.heard ++ x.session.pipe.toFar ++ x.session.sending ++ x.transport.queue.flatten =
    x.accepted.flatten
  /-- A writer that has ended leaves nothing behind, and nothing comes after it. -/
  idle : x.session.writing = false →
    x.transport.closed = true ∧ x.session.sending = [] ∧ x.transport.queue = []
  nearFinished : x.session.pipe.nearFinished = !x.session.writing
  attended : x.session.writing = true → x.transport.abandoned = false
  flushing : x.flushing = true → x.transport.closed = true

theorem sound_begin [LawfulHandler H] {h₀ h : H} {pipe : Pipe} {readTimeout now : Nat} {s : Session}
    (hstart : Session.start h₀ pipe readTimeout now = (.ok s, h)) (htoFar : pipe.toFar = [])
    (hnear : pipe.nearFinished = false) : Sound (begin s h) := by
  unfold Session.start at hstart
  split at hstart
  · rename_i seat h hready
    cases hstart
    obtain ⟨hseated, frames, htakes⟩ := LawfulHandler.onReady hready
    exact
      { seated := hseated
        conserved := by
          show [] ++ pipe.toFar ++ [] ++ _ = _
          rw [htoFar]
          rfl
        idle := nofun
        nearFinished := hnear
        attended := fun _ => htakes.abandoned
        flushing := nofun }
  · cases hstart

namespace Sound

variable {x y : Outflow H}

/-- The transport is used, and what belongs to the writer stays as it is. -/
theorem aside (h : Sound x) {session : Session} {handler : H} {frames : List Bytes}
    (hkeeps : x.session.KeepsWriter session)
    (huses : Uses x.session.seat x.handler frames handler) :
    Sound { x with session, handler, accepted := x.accepted ++ frames } := by
  have htakes : x.transport.Takes frames (SessionHandler.transport handler session.seat) :=
    hkeeps.seat ▸ huses.takes
  refine ⟨hkeeps.seat ▸ huses.seated, ?_, fun hwriting => ?_, ?_, fun hwriting => ?_,
    fun hflushing => ?_⟩
  · show x.heard ++ session.pipe.toFar ++ session.sending ++
      (SessionHandler.transport handler session.seat).queue.flatten = _
    rw [hkeeps.toFar, hkeeps.sending, htakes.queue, List.flatten_append, List.flatten_append,
      ← h.conserved]
    simp only [List.append_assoc]
  · obtain ⟨hclosed, hsending, hqueue⟩ := h.idle (hkeeps.writing.symm.trans hwriting)
    obtain ⟨hclosed', rfl⟩ := htakes.closed hclosed
    exact ⟨hclosed', hkeeps.sending.trans hsending, by rw [transport, htakes.queue, hqueue]; rfl⟩
  · rw [hkeeps.nearFinished, hkeeps.writing, h.nearFinished]
  · exact htakes.abandoned.trans (h.attended (hkeeps.writing.symm.trans hwriting))
  · exact (htakes.closed (h.flushing hflushing)).1

theorem stream (h : Sound x) {read : Bytes} {pipe : Pipe}
    (hpipe : x.session.pipe.FromOutside read pipe) :
    Sound { x with session := { x.session with pipe }, heard := x.heard ++ read } :=
  { seated := h.seated
    conserved := by
      rw [← h.conserved, hpipe.toFar, ← List.append_assoc]
      rfl
    idle := h.idle
    nearFinished := hpipe.nearFinished.trans h.nearFinished
    attended := h.attended
    flushing := h.flushing }

theorem writes [LawfulHandler H] (h : Sound x) {session : Session} {handler : H}
    (hwriting : x.session.writing = true)
    (hwrites : x.session.Writes x.handler session handler) : Sound { x with session, handler } := by
  have hnear : x.session.pipe.nearFinished = false := by rw [h.nearFinished, hwriting]; rfl
  cases hwrites with
  | bytes count hcount =>
    refine { h with
      conserved := ?_
      idle := fun hidle => absurd (hwriting.symm.trans hidle) Bool.noConfusion }
    rw [← h.conserved]
    show x.heard ++ (x.session.pipe.toFar ++ x.session.sending.take count) ++
      x.session.sending.drop count ++ x.transport.queue.flatten = _
    rw [← List.append_assoc, List.append_assoc (x.heard ++ _), List.take_append_drop]
  | @frame frame queue hidle hqueue =>
    have htransport := h.seated { x.transport with queue }
    refine ⟨LawfulHandler.setTransport _ h.seated, ?_,
      fun hidle => absurd (hwriting.symm.trans hidle) Bool.noConfusion, h.nearFinished,
      fun _ => ?_, fun hflushing => ?_⟩
    · show x.heard ++ x.session.pipe.toFar ++ frame ++ (SessionHandler.transport
        (SessionHandler.setTransport x.handler x.session.seat { x.transport with queue })
        x.session.seat).queue.flatten = _
      rw [htransport, ← h.conserved, hidle, transport, hqueue, List.flatten_cons, List.append_nil,
        List.append_assoc]
    · show (SessionHandler.transport (SessionHandler.setTransport x.handler x.session.seat
        { x.transport with queue }) x.session.seat).abandoned = false
      rw [htransport]
      exact h.attended hwriting
    · show (SessionHandler.transport (SessionHandler.setTransport x.handler x.session.seat
        { x.transport with queue }) x.session.seat).closed = true
      rw [htransport]
      exact h.flushing hflushing
  | finish hidle hqueue hclosed =>
    have htransport : SessionHandler.transport (x.session.endWriting x.handler true).2
        (x.session.endWriting x.handler true).1.seat = x.transport.abandon := h.seated _
    refine ⟨LawfulHandler.setTransport _ h.seated, ?_, fun _ => ?_, ?_, nofun, fun _ => ?_⟩
    · rw [← h.conserved, hidle]
      unfold transport
      rw [htransport, hqueue]
      rfl
    · unfold transport
      rw [htransport]
      exact ⟨hclosed, rfl, rfl⟩
    · show (x.session.pipe.nearFinished || true) = !false
      rw [Bool.or_true]
      rfl
    · unfold transport
      rw [htransport]
      exact hclosed

/-- No step of the reader is left out. -/
theorem exists_reads [LawfulHandler H] (h : Sound x) {now : Nat} {session : Session} {handler : H}
    (hstep : x.session.readStep x.handler now = some (session, handler)) :
    ∃ frames, Step x { x with session, handler, accepted := x.accepted ++ frames } := by
  obtain ⟨frames, huses⟩ := exists_uses_readStep h.seated hstep
  exact ⟨frames, .reads hstep huses⟩

/-- Every step keeps what is always so. -/
theorem step [LawfulHandler H] (h : Sound x) (hstep : Step x y) : Sound y := by
  cases hstep with
  | uses huses => exact h.aside ⟨rfl, rfl, rfl, rfl, rfl⟩ huses
  | stream hpipe => exact h.stream hpipe
  | reads hstep huses => exact h.aside (Session.keepsWriter_readStep hstep) huses
  | readsOn hstep huses => exact h.aside (Session.keepsWriter_readOn hstep) huses
  | lapses hphase hstep huses =>
    cases hstep
    exact h.aside ⟨rfl, rfl, rfl, rfl, rfl⟩ huses
  | writes hflushing hfine hstep =>
    obtain ⟨hwriting, hwrites⟩ := Session.writes_of_writeStep hfine hstep
    exact h.writes hwriting hwrites
  | notices hclosed hidle => exact { h with flushing := fun _ => hclosed }
  | flushes hflushing hfine hstep =>
    rw [Session.flushStep_eq_writeStep (h.flushing hflushing) hfine] at hstep
    obtain ⟨hwriting, hwrites⟩ := Session.writes_of_writeStep hfine hstep
    exact h.writes hwriting hwrites
  | abandons =>
    have hafter := h.aside (Session.keepsWriter_abandon _) (.refl h.seated)
    rwa [List.append_nil] at hafter
  | ends hstep =>
    have hafter := h.aside (Session.keepsWriter_endStep hstep) (.refl h.seated)
    rwa [List.append_nil] at hafter

theorem run [LawfulHandler H] (h : Sound x) (hrun : Run x y) : Sound y := by
  induction hrun with
  | refl => exact h
  | tail _ hstep ih => exact ih.step hstep

/-! ## After the transport is closed -/

/-- A closed transport stays closed and accepts nothing. -/
theorem closed_step (h : Sound x) (hstep : Step x y) (hclosed : x.transport.closed = true) :
    y.transport.closed = true ∧ y.accepted = x.accepted := by
  have haside {session : Session} {handler : H} {frames : List Bytes}
      (hkeeps : x.session.KeepsWriter session)
      (huses : Uses x.session.seat x.handler frames handler) :
      (SessionHandler.transport handler session.seat).closed = true ∧
        x.accepted ++ frames = x.accepted := by
    obtain ⟨hafter, rfl⟩ := huses.takes.closed hclosed
    exact ⟨hkeeps.seat ▸ hafter, List.append_nil _⟩
  have hwrites {session : Session} {handler : H} (hwrites : x.session.Writes x.handler session handler) :
      (SessionHandler.transport handler session.seat).closed = true := by
    cases hwrites with
    | bytes => exact hclosed
    | frame =>
      dsimp only
      rw [h.seated]
      exact hclosed
    | finish =>
      dsimp only [Session.endWriting]
      rw [h.seated]
      exact hclosed
  cases hstep with
  | uses huses => exact haside ⟨rfl, rfl, rfl, rfl, rfl⟩ huses
  | reads hstep huses => exact haside (Session.keepsWriter_readStep hstep) huses
  | readsOn hstep huses => exact haside (Session.keepsWriter_readOn hstep) huses
  | lapses hphase hstep huses =>
    cases hstep
    exact haside ⟨rfl, rfl, rfl, rfl, rfl⟩ huses
  | writes hflushing hfine hstep =>
    exact ⟨hwrites (Session.writes_of_writeStep hfine hstep).2, rfl⟩
  | flushes hflushing hfine hstep =>
    rw [Session.flushStep_eq_writeStep hclosed hfine] at hstep
    exact ⟨hwrites (Session.writes_of_writeStep hfine hstep).2, rfl⟩
  | abandons => exact ⟨(haside (Session.keepsWriter_abandon _) (.refl h.seated)).1, rfl⟩
  | ends hstep => exact ⟨(haside (Session.keepsWriter_endStep hstep) (.refl h.seated)).1, rfl⟩
  | stream | notices => exact ⟨hclosed, rfl⟩

theorem closed_run [LawfulHandler H] (h : Sound x) (hrun : Run x y)
    (hclosed : x.transport.closed = true) :
    y.transport.closed = true ∧ y.accepted = x.accepted := by
  induction hrun with
  | refl => exact ⟨hclosed, rfl⟩
  | tail hrun hstep ih =>
    obtain ⟨hafter, hsame⟩ := (h.run hrun).closed_step hstep ih.1
    exact ⟨hafter, hsame.trans ih.2⟩

end Sound
end Outflow
end ShardMesh
