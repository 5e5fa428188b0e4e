import ShardMesh.Proofs.Server.Lifecycle

/-!
# Writing down what a session tells a server

A recording is a server with the calls that a session made to it. A session does with a recording what
it does with the server (`start_server`, `readStep_server`, `writeStep_server`).
-/

namespace ShardMesh

variable {C P : Type} [Packet P]

/-- A server with what it was told, in order. -/
structure Recording (C P : Type) where
  server : Server C P
  calls : List (Server.Call P) := []

namespace Recording

/-- Tells the server something. -/
def tell (r : Recording C P) (call : Server.Call P) : Recording C P :=
  ⟨r.server.apply call, r.calls ++ [call]⟩

instance : SessionHandler (Recording C P) where
  onReady r transport := ((r.server.onReady transport).1, r.tell (.ready transport))
  onFrame r seat frame := r.tell (.frame seat frame)
  onClosed r seat reason := r.tell (.closed seat reason)
  onWriteError r seat _ := r.tell (.writeError seat)
  transport r seat := SessionHandler.transport r.server seat
  setTransport r seat transport := r.tell (.setTransport seat transport)

/-- What a session does to a recording, seen at the server. -/
def atServer (outcome : Session × Recording C P) : Session × Server C P :=
  (outcome.1, outcome.2.server)

theorem start_server (r : Recording C P) (pipe : Pipe) (readTimeout now : Nat) :
    ((Session.start r pipe readTimeout now).1, (Session.start r pipe readTimeout now).2.server) =
      Session.start r.server pipe readTimeout now := by
  have hready : SessionHandler.onReady r {} = ((r.server.onReady {}).1, r.tell (.ready {})) := rfl
  have hthere : SessionHandler.onReady r.server {} = r.server.onReady {} := rfl
  have hafter : (r.tell (.ready {})).server = (r.server.onReady {}).2 := rfl
  unfold Session.start
  rw [hready, hthere]
  rcases h : r.server.onReady {} with ⟨⟨e, transport⟩ | seat, server⟩
  · rw [h] at hafter
    exact congrArg (Prod.mk _) hafter
  · rw [h] at hafter
    exact congrArg (Prod.mk _) hafter

theorem readStep_server (s : Session) (r : Recording C P) (now : Nat) :
    (s.readStep r now).map atServer = s.readStep r.server now := by
  have htransport : SessionHandler.transport r s.seat = SessionHandler.transport r.server s.seat := rfl
  unfold Session.readStep
  cases s.phase with
  | reading deadline =>
    dsimp only
    rw [htransport]
    split
    · rfl
    · split
      · rfl
      · split <;> rfl
  | _ => rfl

theorem writeStep_server (s : Session) (r : Recording C P) :
    (s.writeStep r).map atServer = s.writeStep r.server := by
  have htransport : SessionHandler.transport r s.seat = SessionHandler.transport r.server s.seat := rfl
  unfold Session.writeStep
  rw [htransport]
  split
  · rfl
  · split
    · split
      · rfl
      · split <;> rfl
    · dsimp only
      split
      · split <;> rfl
      · split <;> rfl

/-- The transport is closed before the end is told. -/
theorem endReading_eq (r : Recording C P) (s : Session) (now : Nat) (reason : DisconnectReason) :
    s.endReading r now reason =
      ({ s with phase := .closing (now + s.readTimeout) },
        (r.tell (.setTransport s.seat (SessionHandler.transport r s.seat).close)).tell
          (.closed s.seat reason)) := rfl

theorem endWriting_eq (r : Recording C P) (s : Session) (finished : Bool) :
    s.endWriting r finished =
      ({ s with
          writing := false
          sending := []
          pipe := { s.pipe with nearFinished := s.pipe.nearFinished || finished } },
        r.tell (.setTransport s.seat (SessionHandler.transport r s.seat).abandon)) := rfl

end Recording

namespace Server

/-! ## What listeners hear of a session by itself -/

/-- The seat that a call goes to, if it goes to one. -/
def Call.at? : Call P → Option Seat
  | .frame seat _ | .closed seat _ | .writeError seat | .setTransport seat _ | .send seat _ =>
    some seat
  | _ => none

/-- Whether a call says what happened to a session; the rest is how sessions use transports. -/
def Call.isReport : Call P → Bool
  | .setTransport _ _ => false
  | _ => true

theorem seat_of_mem_toldBy {s : Server C P} {call : Call P} {seat : Seat}
    (hat : call.at? = some seat) {notice : Seat × ConnectionEvent P} (h : notice ∈ s.toldBy call) :
    notice.1 = seat := by
  have hend (reason : DisconnectReason) (hmem : notice ∈ s.toldAtEnd seat reason) :
      notice.1 = seat := by
    unfold toldAtEnd at hmem
    split at hmem
    · rw [List.mem_singleton.mp hmem]
    · cases hmem
  cases call with
  | frame there bytes =>
    cases hat
    unfold toldBy at h
    dsimp only at h
    split at h
    · rw [List.mem_singleton.mp h]
    · cases h
  | closed there reason =>
    cases hat
    exact hend reason h
  | writeError there =>
    cases hat
    exact hend .reset h
  | setTransport there transport => cases h
  | send there packet => cases h
  | _ => cases hat

theorem seat_of_mem_told {s : Server C P} {calls : List (Call P)} {seat : Seat}
    (hat : ∀ call ∈ calls, call.at? = some seat) {notice : Seat × ConnectionEvent P}
    (h : notice ∈ s.told calls) : notice.1 = seat := by
  induction calls generalizing s with
  | nil => cases h
  | cons call calls ih =>
    rcases List.mem_append.mp h with h | h
    · exact seat_of_mem_toldBy (hat call List.mem_cons_self) h
    · exact ih (fun call hmem => hat call (List.mem_cons_of_mem _ hmem)) h

omit [Packet P] in
/-- The story of a connection is in the reports. -/
theorem story_reports (read : Bytes → Option P) (seat : Seat) (calls : List (Call P)) :
    story read seat (calls.filter Call.isReport) = story read seat calls := by
  induction calls with
  | nil => rfl
  | cons call calls ih =>
    cases hreport : call.isReport with
    | true =>
      rw [List.filter_cons_of_pos hreport]
      cases hend : call.end? seat with
      | some reason => rw [story_cons_of_end hend, story_cons_of_end hend]
      | none => rw [story_cons_of_open hend, story_cons_of_open hend, ih]
    | false =>
      cases call with
      | setTransport there transport =>
        have hopen : (Call.setTransport there transport : Call P).end? seat = none := end?_of_none rfl seat
        rw [List.filter_cons_of_neg (by simp [hreport]), ih, story_cons_of_open hopen]
        rfl
      | _ => cases hreport

omit [Packet P] in
theorem story_frames_closed (read : Bytes → Option P) (seat : Seat) (frames : List Bytes)
    (reason : DisconnectReason) :
    story read seat (frames.map (.frame seat) ++ [.closed seat reason]) =
      (frames.filterMap read).map .packet ++ [endNews reason] := by
  induction frames with
  | nil =>
    exact story_cons_of_end ((end?_of_ending rfl seat).trans (if_pos rfl)) []
  | cons frame frames ih =>
    rw [List.map_cons, List.cons_append, story_cons_of_open (end?_of_none rfl seat), ih, packet?_frame,
      if_pos rfl]
    cases hread : read frame <;> simp [hread]

/-- The dispatcher is handed the beginning of the session, its packets and its end. -/
theorem dispatcher_of_reports {s : Server C P} {seat : Seat} {transport : Transport}
    (hready : (s.onReady transport).1 = .ok seat) {calls : List (Call P)}
    (hat : ∀ call ∈ calls, call.at? = some seat) {frames : List Bytes} {reason : DisconnectReason}
    (hreports : calls.filter Call.isReport = frames.map (.frame seat) ++ [.closed seat reason]) :
    (s.after (.ready transport :: calls)).dispatcher = s.dispatcher.hear
      ((News.active :: (frames.filterMap s.hub.packetOf).map News.packet ++ [endNews reason]).map
        (⟨some (s.lastId + 1), ·⟩)) := by
  -- all calls are about this seat, so nothing of what is told is left out
  have hall : about seat (s.told (.ready transport :: calls)) =
      (s.told (.ready transport :: calls)).map Prod.snd := by
    rw [about, List.filter_eq_self.mpr]
    intro notice hmem
    refine decide_eq_true ?_
    rcases List.mem_append.mp hmem with hmem | hmem
    · rw [toldBy, hready] at hmem
      rw [List.mem_singleton.mp hmem]
    · exact seat_of_mem_told hat hmem
  have hheard : about seat (s.told ([] ++ .ready transport :: calls)) = _ :=
    about_told_of_ready hready
  rw [← story_reports, hreports, story_frames_closed] at hheard
  rw [dispatcher_after, ← hall]
  exact congrArg s.dispatcher.hear hheard

end Server
end ShardMesh
