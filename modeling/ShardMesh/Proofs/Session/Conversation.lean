import ShardMesh.Proofs.Server.Echo
import ShardMesh.Proofs.Session.Recording

/-!
# A session with a peer that writes a stream

The peer writes its bytes in chunks of any size and then finishes, and it reads what comes back; the
session reads and writes in steps. The moves may come in any order, and no deadline comes. `Sound` says
where every byte of the stream and of the echoes is at all times; each move keeps that and leads on
(`Sound.plays`).
-/

namespace ShardMesh

variable {C P : Type} [Packet P]

/-! ## The near end while nothing is wrong -/

theorem Pipe.readNear_of_none {p : Pipe} (h : p.readFault = none) :
    p.readNear = if !p.toNear.isEmpty then (.data p.toNear, { p with toNear := [] })
      else if p.farFinished || p.farGone then (.ended, p) else (.nothing, p) := by
  unfold readNear
  rw [h]

theorem Pipe.writeNear_of_open {p : Pipe} (hfault : p.writeFault = none) (hgone : p.farGone = false)
    (hfinished : p.nearFinished = false) (bytes : Bytes) :
    p.writeNear bytes = .ok (bytes.drop (p.capacity - p.toFar.length),
      { p with toFar := p.toFar ++ bytes.take (p.capacity - p.toFar.length) }) := by
  unfold writeNear
  rw [hfault, hgone, hfinished]
  rfl

/-! ## Conversations -/

/-- A session that is handled by a server, and the peer at the far end of its stream. -/
structure Conversation (C P : Type) where
  session : Session
  handler : Recording C P
  /-- What the peer still has to write. -/
  unwritten : Bytes
  /-- What the peer has read. -/
  heard : Bytes := []

/-- What can happen next. -/
inductive Move where
  /-- The peer writes a chunk of at most so many bytes. -/
  | peerWrites (count : Nat)
  /-- The peer writes nothing more. -/
  | peerFinishes
  | peerReads
  /-- The reader of the session does a step, at some time. -/
  | reads (now : Nat)
  /-- The writer of the session does a step. -/
  | writes
  /-- The session ends, as neither reader nor writer goes on. -/
  | ends
  deriving DecidableEq, Repr

namespace Conversation

/-- The conversation after a move, if it is possible. -/
def play (x : Conversation C P) : Move → Option (Conversation C P)
  | .peerWrites count =>
    match x.session.pipe.writeFar (x.unwritten.take count) with
    | .error _ => none
    | .ok (rest, pipe) =>
      if rest.length = (x.unwritten.take count).length then none
      else some { x with
        session := { x.session with pipe }
        unwritten := rest ++ x.unwritten.drop count }
  | .peerFinishes =>
    if x.unwritten.isEmpty && !x.session.pipe.farFinished then
      some { x with session := { x.session with
        pipe := { x.session.pipe with farFinished := true } } }
    else none
  | .peerReads =>
    match x.session.pipe.readFar with
    | ([], _) => none
    | (bytes, pipe) => some { x with session := { x.session with pipe }, heard := x.heard ++ bytes }
  | .reads now => (x.session.readStep x.handler now).map fun (session, handler) =>
      { x with session, handler }
  | .writes => (x.session.writeStep x.handler).map fun (session, handler) =>
      { x with session, handler }
  | .ends => x.session.endStep.map fun session => { x with session }

/-- The conversation after some moves, if they are possible. -/
def run (x : Conversation C P) : List Move → Option (Conversation C P)
  | [] => some x
  | move :: moves => (x.play move).bind (·.run moves)

/-- What the server was told of the session. -/
def reports (x : Conversation C P) : List (Server.Call P) :=
  x.handler.calls.filter Server.Call.isReport

/-- How much has come of a conversation: reports, bytes on their way to the peer, and what has
    ended. -/
def achieved (x : Conversation C P) : Nat :=
  x.reports.length + 3 * x.heard.length + 2 * x.session.pipe.toFar.length + x.session.sending.length +
    x.session.pipe.farFinished.toNat + (!x.session.writing).toNat +
    (decide (x.session.phase = .over)).toNat

/-- How far the bytes of the peer still have to go to arrive. -/
def outstanding (x : Conversation C P) : Nat :=
  2 * x.unwritten.length + x.session.pipe.toNear.length

/-- A move leads on: more is achieved, or less is outstanding. -/
def Advances (x x' : Conversation C P) : Prop :=
  x.achieved + x'.outstanding < x'.achieved + x.outstanding

/-! ## What holds all the time -/

/-- How a stream ends: on the boundary of a frame, or with some bytes left. -/
def endOf (left : Bytes) : DisconnectReason := if left.isEmpty then .closed else .protocolException

/-- The session reads: it has reported the frames so far, and its connection takes more. -/
structure Reading (seat : Seat) (x : Conversation C P) (frames : List Bytes) (c : Connection C) :
    Prop where
  reports : x.reports = .ready {} :: frames.map (.frame seat)
  active : c.active = true
  isOpen : c.transport.isOpen = true
  writing : x.session.writing = true
  nearGone : x.session.pipe.nearGone = false

/-- The session has read everything and reported the end. -/
structure Ended (seat : Seat) (x : Conversation C P) (frames : List Bytes) (c : Connection C) :
    Prop where
  reports : x.reports =
    .ready {} :: (frames.map (.frame seat) ++ [.closed seat (endOf x.session.received)])
  left : Frame.next? x.session.received = none
  toNear : x.session.pipe.toNear = []
  unwritten : x.unwritten = []
  farFinished : x.session.pipe.farFinished = true
  closed : c.transport.closed = true

/-- What a phase says about a conversation. -/
inductive Stage (seat : Seat) (x : Conversation C P) (frames : List Bytes) (c : Connection C) :
    Phase → Prop where
  | reading (deadline : Nat) (h : Reading seat x frames c) : Stage seat x frames c (.reading deadline)
  | closing (deadline : Nat) (h : Ended seat x frames c) : Stage seat x frames c (.closing deadline)
  | done (h : Ended seat x frames c) (hwriting : x.session.writing = false) :
    Stage seat x frames c .over

/-- The server was told of one session only. -/
structure Told (s : Server C P) (seat : Seat) (r : Recording C P) : Prop where
  server : r.server = s.after r.calls
  begun : ∃ more, r.calls = .ready {} :: more ∧ ∀ call ∈ more, call.at? = some seat

/-- What holds of a conversation at all times: which frames the session has taken off the stream, which
    frames it has got to write, and where the bytes of both are. -/
structure Sound (s : Server C P) (seat : Seat) (stream : Bytes) (x : Conversation C P)
    (frames echoes : List Bytes) (c : Connection C) : Prop where
  seat_eq : x.session.seat = seat
  told : Told s seat x.handler
  account : s.Account x.handler.server seat frames echoes c
  framed : ∀ frame ∈ frames, frame.length = Frame.totalLength frame
  /-- The stream on its way from the peer. -/
  arriving : frames.flatten ++ x.session.received ++ x.session.pipe.toNear ++ x.unwritten = stream
  finished : x.session.pipe.farFinished = true → x.unwritten = []
  /-- The echoes on their way to the peer. -/
  leaving : x.heard ++ x.session.pipe.toFar ++ x.session.sending ++ c.transport.queue.flatten =
    echoes.flatten
  queued : ∀ frame ∈ c.transport.queue, frame ∈ echoes
  idle : x.session.writing = false → x.session.sending = [] ∧ c.transport.queue = []
  nearFinished : x.session.pipe.nearFinished = !x.session.writing
  /-- Nothing is wrong with the stream. -/
  readFault : x.session.pipe.readFault = none
  writeFault : x.session.pipe.writeFault = none
  farGone : x.session.pipe.farGone = false
  capacity : 0 < x.session.pipe.capacity
  stage : Stage seat x frames c x.session.phase

theorem Told.tell {s : Server C P} {seat : Seat} {r : Recording C P} (h : Told s seat r)
    {call : Server.Call P} (hat : call.at? = some seat) : Told s seat (r.tell call) := by
  obtain ⟨hserver, more, hcalls, hmore⟩ := h
  refine ⟨?_, more ++ [call], ?_, fun other hother => ?_⟩
  · show r.server.apply call = s.after (r.calls ++ [call])
    rw [Server.after_append, ← hserver]
    rfl
  · show r.calls ++ [call] = _
    rw [hcalls, List.cons_append]
  · rcases List.mem_append.mp hother with hother | hother
    · exact hmore other hother
    · rw [List.mem_singleton.mp hother, hat]

variable {s : Server C P} {seat : Seat} {stream : Bytes} {x x' : Conversation C P}
  {frames echoes : List Bytes} {c c' : Connection C}

omit [Packet P] in
/-- What changes neither the phase nor whether the writer goes on leaves the stage as it is. -/
theorem Stage.imp {phase : Phase} (h : Stage seat x frames c phase)
    (hreading : Reading seat x frames c → Reading seat x' frames c')
    (hended : Ended seat x frames c → Ended seat x' frames c')
    (hwriting : x'.session.writing = x.session.writing) : Stage seat x' frames c' phase := by
  cases h with
  | reading deadline h => exact .reading deadline (hreading h)
  | closing deadline h => exact .closing deadline (hended h)
  | done h hidle => exact .done (hended h) (hwriting.trans hidle)

omit [Packet P] in
theorem Reading.not_closed (h : Reading seat x frames c) : c.transport.closed = false := by
  have hopen := h.isOpen
  unfold Transport.isOpen at hopen
  simpa using (Bool.and_eq_true_iff.mp hopen).1

theorem Sound.reading (h : Sound s seat stream x frames echoes c) {deadline : Nat}
    (hphase : x.session.phase = .reading deadline) : Reading seat x frames c := by
  have hstage := h.stage
  rw [hphase] at hstage
  cases hstage
  assumption

/-- A session that has closed its transport and still writes is closing. -/
theorem Sound.closing (h : Sound s seat stream x frames echoes c)
    (hclosed : c.transport.closed = true) (hwriting : x.session.writing = true) :
    ∃ deadline, x.session.phase = .closing deadline ∧ Ended seat x frames c := by
  have hstage := h.stage
  generalize x.session.phase = phase at hstage
  cases hstage with
  | reading deadline hreading =>
    rw [hreading.not_closed] at hclosed
    cases hclosed
  | closing deadline hended => exact ⟨deadline, rfl, hended⟩
  | done hended hidle =>
    rw [hwriting] at hidle
    cases hidle

omit [Packet P] in
theorem Reading.length_reports (h : Reading seat x frames c) :
    x.reports.length = frames.length + 1 := by
  rw [h.reports, List.length_cons, List.length_map]

omit [Packet P] in
theorem Ended.length_reports (h : Ended seat x frames c) : x.reports.length = frames.length + 2 := by
  rw [h.reports, List.length_cons, List.length_append, List.length_map]
  rfl

/-! ## Moves of the peer -/

theorem Sound.peerWrites (h : Sound s seat stream x frames echoes c) {count : Nat}
    (hplay : x.play (.peerWrites count) = some x') :
    Sound s seat stream x' frames echoes c ∧ x.Advances x' := by
  unfold play Pipe.writeFar at hplay
  dsimp only at hplay
  split at hplay
  · cases hplay
  · rename_i rest pipe hwrite
    split at hwrite
    · cases hwrite
    · rename_i hopen
      cases hwrite
      split at hplay <;> cases hplay
      rename_i hsome
      -- a peer that still writes has not finished, so the end has not been read either
      have hfinished : x.session.pipe.farFinished ≠ true := fun hfar => hopen (by simp [hfar])
      refine ⟨{ h with
        arriving := ?_
        finished := fun hfar => absurd hfar hfinished
        stage := h.stage.imp (fun hreading => { hreading with })
          (fun hended => absurd hended.farFinished hfinished) rfl }, ?_⟩
      · rw [← h.arriving]
        simp only [List.append_assoc, ← List.append_assoc (List.take _ (List.take _ _)),
          List.take_append_drop]
      · rw [List.length_drop, List.length_take] at hsome
        simp only [Advances, achieved, outstanding, reports, List.length_append, List.length_drop,
          List.length_take]
        omega

theorem Sound.peerFinishes (h : Sound s seat stream x frames echoes c)
    (hplay : x.play .peerFinishes = some x') :
    Sound s seat stream x' frames echoes c ∧ x.Advances x' := by
  unfold play at hplay
  dsimp only at hplay
  split at hplay <;> cases hplay
  rename_i hopen
  obtain ⟨hunwritten, hfar⟩ := Bool.and_eq_true_iff.mp hopen
  refine ⟨{ h with
    finished := fun _ => List.isEmpty_iff.mp hunwritten
    stage := h.stage.imp (fun hreading => { hreading with })
      (fun hended => { hended with farFinished := rfl }) rfl }, ?_⟩
  have hbefore : x.session.pipe.farFinished = false := by simpa using hfar
  simp only [Advances, achieved, outstanding, reports, hbefore, Bool.toNat_true, Bool.toNat_false]
  omega

theorem Sound.peerReads (h : Sound s seat stream x frames echoes c)
    (hplay : x.play .peerReads = some x') :
    Sound s seat stream x' frames echoes c ∧ x.Advances x' := by
  unfold play Pipe.readFar at hplay
  dsimp only at hplay
  split at hplay <;> cases hplay
  rename_i hsome hread
  cases hread
  refine ⟨{ h with
    leaving := by
      rw [← h.leaving]
      exact congrArg (· ++ _ ++ _) (List.append_nil _)
    stage := h.stage.imp (fun hreading => { hreading with }) (fun hended => { hended with }) rfl }, ?_⟩
  have hpos : 0 < x.session.pipe.toFar.length :=
    List.length_pos_iff.mpr hsome
  simp only [Advances, achieved, outstanding, reports, List.length_append, List.length_nil]
  omega

/-! ## Steps of the reader -/

theorem Sound.transport (h : Sound s seat stream x frames echoes c) :
    SessionHandler.transport x.handler x.session.seat = c.transport := by
  show ((x.handler.server.roster.get? x.session.seat).map (·.transport)).getD {} = c.transport
  rw [h.seat_eq, h.account.connection]
  rfl

theorem reports_tell (r : Recording C P) (call : Server.Call P) :
    (r.tell call).calls.filter Server.Call.isReport =
      r.calls.filter Server.Call.isReport ++ [call].filter Server.Call.isReport :=
  List.filter_append ..

theorem reports_setTransport (r : Recording C P) (seat : Seat) (transport : Transport) :
    (r.tell (.setTransport seat transport)).calls.filter Server.Call.isReport =
      r.calls.filter Server.Call.isReport :=
  (reports_tell r _).trans (List.append_nil _)

/-- What a codec needs to send every probe back. -/
structure Echoes (s : Server C P) : Prop where
  uniform : s.hub.codec.scratch.Uniform
  key : s.hub.codec.cipher.HasKey
  brief : s.hub.codec.compressors.Brief
  room : 8 ≤ s.hub.codec.scratchSize

/-- The reader takes a frame off and reports it; if it is a probe, one more frame is to be written. -/
theorem Sound.takesFrame [LawfulPacket P] [LawfulProbe P]
    (h : Sound s seat stream x frames echoes c) (hs : Echoes s) (hreading : Reading seat x frames c)
    {frame received : Bytes} (hnext : Frame.next? x.session.received = some (frame, received))
    {before deadline : Nat} (hphase : x.session.phase = .reading before)
    (hx' : x' = { x with
      session := { x.session with received, phase := .reading deadline }
      handler := x.handler.tell (.frame x.session.seat frame) }) :
    ∃ reply c', Sound s seat stream x' (frames ++ [frame]) (echoes ++ reply) c' ∧ x.Advances x' := by
  subst hx'
  obtain ⟨hjoin, hlength⟩ := Frame.next?_eq_some hnext
  obtain ⟨reply, haccount⟩ := h.account.onFrame_of_lawful hs.uniform hs.key hs.brief hs.room
    hreading.active hreading.isOpen frame
  have hreports : (x.handler.tell (.frame x.session.seat frame)).calls.filter Server.Call.isReport =
      .ready {} :: (frames ++ [frame]).map (.frame seat) := by
    have hbefore := hreading.reports
    rw [Conversation.reports] at hbefore
    rw [reports_tell, hbefore, h.seat_eq, List.map_append]
    rfl
  refine ⟨reply, c.traded frame.length (s.hub.packetOf frame).toList.length reply, { h with
    told := h.told.tell (congrArg some h.seat_eq)
    account := by rw [h.seat_eq]; exact haccount
    framed := ?_
    arriving := ?_
    leaving := ?_
    queued := ?_
    idle := fun hidle => absurd hreading.writing (by rw [hidle]; decide)
    stage := .reading deadline { hreading with reports := hreports } }, ?_⟩
  · intro other hother
    rcases List.mem_append.mp hother with hother | hother
    · exact h.framed other hother
    · rw [List.mem_singleton.mp hother, hlength]
  · rw [← h.arriving, ← hjoin]
    simp only [List.flatten_append, List.flatten_singleton, List.append_assoc]
  · rw [List.flatten_append, ← h.leaving]
    simp only [Connection.traded, List.flatten_append, List.append_assoc]
  · intro echo hecho
    rcases List.mem_append.mp hecho with hecho | hecho
    · exact List.mem_append_left _ (h.queued echo hecho)
    · exact List.mem_append_right _ hecho
  · unfold Advances achieved outstanding
    rw [hreading.length_reports, Conversation.reports, hreports, hphase]
    simp

/-- The reader takes everything that has arrived. -/
theorem Sound.readsBytes (h : Sound s seat stream x frames echoes c)
    (hreading : Reading seat x frames c) {deadline : Nat}
    (hphase : x.session.phase = .reading deadline) (hsome : x.session.pipe.toNear ≠ [])
    (hx' : x' = { x with
      session := { x.session with
        pipe := { x.session.pipe with toNear := [] }
        received := x.session.received ++ x.session.pipe.toNear } }) :
    Sound s seat stream x' frames echoes c ∧ x.Advances x' := by
  subst hx'
  refine ⟨{ h with arriving := ?_, stage := ?_ }, ?_⟩
  · rw [← h.arriving]
    simp only [List.append_nil, List.append_assoc]
  · dsimp only
    rw [hphase]
    exact .reading deadline { hreading with }
  · have hpos := List.length_pos_iff.mpr hsome
    simp only [Advances, achieved, outstanding, reports, List.length_nil]
    omega

/-- At the end of the stream the reader closes the transport and reports how the stream ended. -/
theorem Sound.endsReading (h : Sound s seat stream x frames echoes c)
    (hreading : Reading seat x frames c) {now deadline : Nat}
    (hphase : x.session.phase = .reading deadline) (hleft : Frame.next? x.session.received = none)
    (htoNear : x.session.pipe.toNear = []) (hfar : x.session.pipe.farFinished = true)
    (hx' : x' = { x with
      session := (x.session.endReading x.handler now (endOf x.session.received)).1
      handler := (x.session.endReading x.handler now (endOf x.session.received)).2 }) :
    Sound s seat stream x' frames echoes { c with transport := c.transport.close, active := false } ∧
      x.Advances x' := by
  -- closing the transport is not a report, so the end comes right after the frames
  have hreports : ((x.handler.tell (.setTransport x.session.seat c.transport.close)).tell
      (.closed x.session.seat (endOf x.session.received))).calls.filter Server.Call.isReport =
        .ready {} :: (frames.map (.frame seat) ++ [.closed seat (endOf x.session.received)]) := by
    have hbefore := hreading.reports
    rw [Conversation.reports] at hbefore
    rw [reports_tell, reports_setTransport, hbefore, h.seat_eq]
    rfl
  have haccount := (h.account.setTransport c.transport.close).onClosed hreading.active
    (endOf x.session.received)
  rw [Recording.endReading_eq, h.transport] at hx'
  subst hx'
  refine ⟨{ h with
    told := (h.told.tell (by exact congrArg some h.seat_eq)).tell (congrArg some h.seat_eq)
    account := by rw [h.seat_eq]; exact haccount
    leaving := h.leaving
    queued := h.queued
    idle := h.idle
    stage := .closing _ { hreading with
      reports := hreports, left := hleft, toNear := htoNear, unwritten := h.finished hfar
      farFinished := hfar, closed := rfl } }, ?_⟩
  unfold Advances achieved outstanding
  rw [hreading.length_reports, Conversation.reports, hreports, hphase]
  simp

/-- Every step of the reader is one of the three. -/
theorem Sound.reads [LawfulPacket P] [LawfulProbe P] (h : Sound s seat stream x frames echoes c)
    (hs : Echoes s) {now : Nat} (hplay : x.play (.reads now) = some x') :
    ∃ frames' echoes' c', Sound s seat stream x' frames' echoes' c' ∧ x.Advances x' := by
  unfold play at hplay
  obtain ⟨⟨session, handler⟩, hstep, rfl⟩ := Option.map_eq_some_iff.mp hplay
  unfold Session.readStep at hstep
  split at hstep
  · rename_i deadline hphase
    have hreading := h.reading hphase
    -- nobody but the reader itself closes the transport
    rw [h.transport, hreading.not_closed, if_neg Bool.false_ne_true] at hstep
    split at hstep
    · rename_i frame received hnext
      cases hstep
      obtain ⟨reply, c', hsound⟩ := h.takesFrame hs hreading hnext hphase rfl
      exact ⟨_, _, c', hsound⟩
    · rename_i hnone
      rw [Pipe.readNear_of_none h.readFault] at hstep
      by_cases hempty : x.session.pipe.toNear = []
      · rw [hempty, if_neg (by decide)] at hstep
        by_cases hfar : x.session.pipe.farFinished = true
        · rw [if_pos (by rw [hfar]; rfl)] at hstep
          cases hstep
          exact ⟨_, _, _, h.endsReading hreading hphase hnone hempty hfar rfl⟩
        · rw [if_neg (by simp [hfar, h.farGone])] at hstep
          cases hstep
      · rw [if_pos (by simp [hempty])] at hstep
        cases hstep
        exact ⟨_, _, c, h.readsBytes hreading hphase hempty rfl⟩
  · cases hstep

/-! ## Steps of the writer, and the end -/

/-- The writer writes some bytes of the frame that it has begun. -/
theorem Sound.writesBytes (h : Sound s seat stream x frames echoes c)
    (hwriting : x.session.writing = true) {count : Nat}
    (hsome : (x.session.sending.drop count).length ≠ x.session.sending.length)
    (hx' : x' = { x with
      session := { x.session with
        pipe := { x.session.pipe with toFar := x.session.pipe.toFar ++ x.session.sending.take count }
        sending := x.session.sending.drop count } }) :
    Sound s seat stream x' frames echoes c ∧ x.Advances x' := by
  subst hx'
  refine ⟨{ h with
    leaving := ?_
    idle := fun hidle => absurd hwriting (by rw [hidle]; decide)
    stage := h.stage.imp (fun hreading => { hreading with }) (fun hended => { hended with }) rfl }, ?_⟩
  · rw [← h.leaving]
    simp only [List.append_assoc, List.take_append_drop]
  · rw [List.length_drop] at hsome
    simp only [Advances, achieved, outstanding, reports, List.length_append, List.length_take,
      List.length_drop]
    omega

/-- The writer begins the frame that has waited longest. -/
theorem Sound.beginsFrame (h : Sound s seat stream x frames echoes c)
    (hwriting : x.session.writing = true) (hsending : x.session.sending = []) {frame : Bytes}
    {queue : List Bytes} (hqueue : c.transport.queue = frame :: queue) (hsome : 0 < frame.length)
    (hx' : x' = { x with
      session := { x.session with sending := frame }
      handler := x.handler.tell (.setTransport x.session.seat { c.transport with queue }) }) :
    Sound s seat stream x' frames echoes { c with transport := { c.transport with queue } } ∧
      x.Advances x' := by
  subst hx'
  have hreports := reports_setTransport x.handler x.session.seat { c.transport with queue }
  refine ⟨{ h with
    told := h.told.tell (congrArg some h.seat_eq)
    account := by rw [h.seat_eq]; exact h.account.setTransport _
    leaving := ?_
    queued := fun other hother => h.queued other (by rw [hqueue]; exact List.mem_cons_of_mem _ hother)
    idle := fun hidle => absurd hwriting (by rw [hidle]; decide)
    stage := h.stage.imp
      (fun hreading => { hreading with reports := hreports.trans hreading.reports })
      (fun hended => { hended with reports := hreports.trans hended.reports }) rfl }, ?_⟩
  · rw [← h.leaving, hsending, hqueue, List.flatten_cons, List.append_nil, List.append_assoc,
      List.append_assoc]
  · simp only [Advances, achieved, outstanding, reports, hreports, hsending, List.length_nil]
    omega

/-- When nothing waits any longer at a closed transport, the writer ends. -/
theorem Sound.endsWriting (h : Sound s seat stream x frames echoes c)
    (hwriting : x.session.writing = true) (hsending : x.session.sending = [])
    (hqueue : c.transport.queue = []) (hclosed : c.transport.closed = true)
    (hx' : x' = { x with
      session := (x.session.endWriting x.handler true).1
      handler := (x.session.endWriting x.handler true).2 }) :
    Sound s seat stream x' frames echoes { c with transport := c.transport.abandon } ∧
      x.Advances x' := by
  have hreports := reports_setTransport x.handler x.session.seat c.transport.abandon
  obtain ⟨deadline, hphase, hended⟩ := h.closing hclosed hwriting
  rw [Recording.endWriting_eq, h.transport] at hx'
  subst hx'
  refine ⟨{ h with
    told := h.told.tell (congrArg some h.seat_eq)
    account := by rw [h.seat_eq]; exact h.account.setTransport _
    leaving := ?_
    queued := fun _ hnone => nomatch hnone
    idle := fun _ => ⟨rfl, rfl⟩
    nearFinished := Bool.or_true _
    stage := ?_ }, ?_⟩
  · rw [← h.leaving, hsending, hqueue]
    rfl
  · dsimp only
    rw [hphase]
    exact .closing deadline { hended with reports := hreports.trans hended.reports }
  · simp only [Advances, achieved, outstanding, reports, hreports, hsending, hwriting]
    simp

/-- Every step of the writer is one of the three. -/
theorem Sound.writes (h : Sound s seat stream x frames echoes c) (hs : Echoes s)
    (hplay : x.play .writes = some x') :
    ∃ c', Sound s seat stream x' frames echoes c' ∧ x.Advances x' := by
  unfold play at hplay
  obtain ⟨⟨session, handler⟩, hstep, rfl⟩ := Option.map_eq_some_iff.mp hplay
  unfold Session.writeStep at hstep
  rw [h.transport] at hstep
  cases hwriting : x.session.writing with
  | false =>
    rw [hwriting, if_pos (by decide)] at hstep
    cases hstep
  | true =>
    rw [if_neg (by simp [hwriting])] at hstep
    by_cases hsending : x.session.sending = []
    · rw [if_neg (by simp [hsending])] at hstep
      dsimp only at hstep
      split at hstep
      · rename_i frame queue hqueue
        -- only echoes wait, so the writer finds a header in what it takes
        have hheader : Frame.headerLength ≤ frame.length := by
          refine (Codec.length_of_encodeAll hs.uniform (by rw [h.account.encoded]) (h.queued frame ?_)).1
          rw [hqueue]
          exact List.mem_cons_self
        unfold Frame.append at hstep
        rw [if_neg (Nat.not_lt.mpr hheader)] at hstep
        cases hstep
        exact ⟨_, h.beginsFrame hwriting hsending hqueue (Nat.lt_of_lt_of_le (by decide) hheader) rfl⟩
      · rename_i hqueue
        by_cases hclosed : c.transport.closed = true
        · rw [if_pos hclosed] at hstep
          cases hstep
          exact ⟨_, h.endsWriting hwriting hsending hqueue hclosed rfl⟩
        · rw [if_neg hclosed] at hstep
          cases hstep
    · have hnear : x.session.pipe.nearFinished = false := by rw [h.nearFinished, hwriting]; rfl
      rw [if_pos (by simp [hsending]), Pipe.writeNear_of_open h.writeFault h.farGone hnear] at hstep
      dsimp only at hstep
      split at hstep
      · cases hstep
      · rename_i hsome
        cases hstep
        exact ⟨c, h.writesBytes hwriting hsome rfl⟩

theorem Sound.ends (h : Sound s seat stream x frames echoes c) (hplay : x.play .ends = some x') :
    Sound s seat stream x' frames echoes c ∧ x.Advances x' := by
  unfold play at hplay
  obtain ⟨session, hstep, rfl⟩ := Option.map_eq_some_iff.mp hplay
  have hstage := h.stage
  unfold Session.endStep at hstep
  split at hstep
  · rename_i deadline hphase
    rw [hphase] at hstage
    cases hstage with
    | closing _ hended =>
      split at hstep
      · cases hstep
      · rename_i hidle
        cases hstep
        refine ⟨{ h with stage := .done { hended with } (Bool.not_eq_true _ ▸ hidle) }, ?_⟩
        simp [Advances, achieved, outstanding, reports, Session.finish, hphase]
  · rename_i hphase
    rw [hphase] at hstage
    cases hstage
  · cases hstep

/-- Every move keeps a conversation sound and leads on. -/
theorem Sound.plays [LawfulPacket P] [LawfulProbe P] (h : Sound s seat stream x frames echoes c)
    (hs : Echoes s) {move : Move} (hplay : x.play move = some x') :
    ∃ frames' echoes' c', Sound s seat stream x' frames' echoes' c' ∧ x.Advances x' := by
  cases move with
  | peerWrites count => exact ⟨_, _, c, h.peerWrites hplay⟩
  | peerFinishes => exact ⟨_, _, c, h.peerFinishes hplay⟩
  | peerReads => exact ⟨_, _, c, h.peerReads hplay⟩
  | reads now => exact h.reads hs hplay
  | writes => exact ⟨_, _, h.writes hs hplay⟩
  | ends => exact ⟨_, _, c, h.ends hplay⟩

end Conversation
end ShardMesh
