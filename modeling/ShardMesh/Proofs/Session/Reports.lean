import ShardMesh.Proofs.Session.Conversation

/-!
# What a session reports in the end

No conversation goes on for ever, and none stops before the session is over. So it comes to an end in
every order of its moves, and the end is the same in what was reported, told and sent back.
-/

namespace ShardMesh.Conversation

variable {C P : Type} [Packet P] {s : Server C P} {seat : Seat} {stream : Bytes}
  {x x' : Conversation C P} {frames echoes : List Bytes} {c : Connection C}

/-! ## A conversation goes on until the session is over -/

theorem Sound.goesOnReading (h : Sound s seat stream x frames echoes c) {deadline : Nat}
    (hphase : x.session.phase = .reading deadline) : ∃ move, (x.play move).isSome := by
  have hreading := h.reading hphase
  cases hnext : Frame.next? x.session.received with
  | some found =>
    exact ⟨.reads 0, by simp [play, Session.readStep, hphase, h.transport, hreading.not_closed, hnext]⟩
  | none =>
    by_cases hempty : x.session.pipe.toNear = []
    · by_cases hfar : x.session.pipe.farFinished = true
      · exact ⟨.reads 0, by simp [play, Session.readStep, hphase, h.transport, hreading.not_closed,
          hnext, Pipe.readNear_of_none h.readFault, hempty, hfar]⟩
      · by_cases hunwritten : x.unwritten = []
        · exact ⟨.peerFinishes, by simp [play, hunwritten, hfar]⟩
        · -- the session has read everything, so there is room
          have hpos := List.length_pos_iff.mpr hunwritten
          have hcapacity := h.capacity
          refine ⟨.peerWrites x.unwritten.length, ?_⟩
          simp only [play, Pipe.writeFar, hreading.nearGone, hfar, hempty]
          rw [if_neg (by decide)]
          dsimp only
          rw [if_neg]
          · rfl
          · rw [List.length_drop, List.length_take, List.length_nil]
            omega
    · exact ⟨.reads 0, by simp [play, Session.readStep, hphase, h.transport, hreading.not_closed,
        hnext, Pipe.readNear_of_none h.readFault, hempty]⟩

theorem Sound.goesOnClosing (h : Sound s seat stream x frames echoes c) {deadline : Nat}
    (hphase : x.session.phase = .closing deadline) (hclosed : c.transport.closed = true) :
    ∃ move, (x.play move).isSome := by
  cases hwriting : x.session.writing with
  | false => exact ⟨.ends, by simp [play, Session.endStep, hphase, hwriting]⟩
  | true =>
    by_cases hsending : x.session.sending = []
    · refine ⟨.writes, ?_⟩
      cases hqueue : c.transport.queue with
      | nil =>
        simp [play, Session.writeStep, hwriting, hsending, h.transport, hqueue, hclosed]
      | cons frame queue =>
        simp only [play, Session.writeStep, hwriting, hsending, h.transport, hqueue]
        cases Frame.append frame [] <;> rfl
    · by_cases hfar : x.session.pipe.toFar = []
      · -- the peer has read everything, so there is room
        have hnear : x.session.pipe.nearFinished = false := by rw [h.nearFinished, hwriting]; rfl
        have hpos := List.length_pos_iff.mpr hsending
        have hcapacity := h.capacity
        refine ⟨.writes, ?_⟩
        simp only [play, Session.writeStep, hwriting]
        rw [if_neg (by decide), if_pos (by simp [hsending]),
          Pipe.writeNear_of_open h.writeFault h.farGone hnear]
        dsimp only
        rw [if_neg]
        · rfl
        · rw [List.length_drop, hfar, List.length_nil]
          omega
      · refine ⟨.peerReads, ?_⟩
        unfold play Pipe.readFar
        dsimp only
        split
        · rename_i hnone
          exact absurd (Prod.mk.inj hnone).1 hfar
        · rfl

/-- Unless the session is over, some move is possible. -/
theorem Sound.goesOn (h : Sound s seat stream x frames echoes c) (hphase : x.session.phase ≠ .over) :
    ∃ move, (x.play move).isSome := by
  have hstage := h.stage
  generalize hcase : x.session.phase = phase at hstage
  cases hstage with
  | reading deadline _ => exact h.goesOnReading hcase
  | closing deadline hended => exact h.goesOnClosing hcase hended.closed
  | done _ _ => exact absurd hcase hphase

/-! ## A conversation does not go on for ever -/

theorem length_le_flatten (h : ∀ frame ∈ frames, frame.length = Frame.totalLength frame) :
    frames.length ≤ frames.flatten.length := by
  induction frames with
  | nil => exact Nat.le_refl _
  | cons frame frames ih =>
    have hfirst := h frame List.mem_cons_self
    have hmore := ih fun other hother => h other (List.mem_cons_of_mem _ hother)
    have hheader := Frame.headerLength_le_total frame
    rw [List.flatten_cons, List.length_append, List.length_cons]
    unfold Frame.headerLength at hheader
    omega

theorem length_flatten_le {bound : Nat} (h : ∀ echo ∈ echoes, echo.length ≤ bound) :
    echoes.flatten.length ≤ bound * echoes.length := by
  induction echoes with
  | nil => exact Nat.le_refl _
  | cons echo echoes ih =>
    have hfirst := h echo List.mem_cons_self
    have hmore := ih fun other hother => h other (List.mem_cons_of_mem _ hother)
    rw [List.flatten_cons, List.length_append, List.length_cons, Nat.mul_succ]
    omega

/-- There are at most as many echoes as frames, and frames as bytes. -/
theorem Sound.lengths (h : Sound s seat stream x frames echoes c) :
    echoes.length ≤ frames.length ∧ frames.length ≤ stream.length := by
  constructor
  · have hlength := Codec.length_encodeAll s.hub.codec (probes (frames.filterMap s.hub.packetOf))
    rw [h.account.encoded, List.length_map] at hlength
    rw [hlength]
    exact Nat.le_trans (List.length_filter_le ..) (List.length_filterMap_le ..)
  · have hflatten := length_le_flatten h.framed
    have harriving := congrArg List.length h.arriving
    simp only [List.length_append] at harriving
    omega

/-- The most that can be achieved with a stream of some length. -/
def most (length : Nat) : Nat := 3 * ((Frame.headerLength + Frame.maxPayload) * length) + length + 5

theorem Sound.achieved_le (h : Sound s seat stream x frames echoes c) (hs : Echoes s) :
    x.achieved ≤ most stream.length := by
  obtain ⟨hechoes, hframes⟩ := h.lengths
  have hreports : x.reports.length ≤ frames.length + 2 := by
    have hstage := h.stage
    generalize x.session.phase = phase at hstage
    cases hstage with
    | reading _ hreading => exact Nat.le_succ_of_le (Nat.le_of_eq hreading.length_reports)
    | closing _ hended => exact Nat.le_of_eq hended.length_reports
    | done hended _ => exact Nat.le_of_eq hended.length_reports
  -- every byte that was sent back is a byte of an echo
  have hleaving := congrArg List.length h.leaving
  simp only [List.length_append] at hleaving
  have hbytes : echoes.flatten.length ≤ (Frame.headerLength + Frame.maxPayload) * stream.length :=
    Nat.le_trans (length_flatten_le fun echo hecho =>
        (Codec.length_of_encodeAll hs.uniform (by rw [h.account.encoded]) hecho).2)
      (Nat.mul_le_mul_left _ (Nat.le_trans hechoes hframes))
  have hfar := Bool.toNat_le x.session.pipe.farFinished
  have hwriting := Bool.toNat_le (!x.session.writing)
  have hover := Bool.toNat_le (decide (x.session.phase = .over))
  unfold achieved most
  omega

/-- What every move does, a run does as often as it has moves. -/
theorem Sound.runs [LawfulPacket P] [LawfulProbe P] (h : Sound s seat stream x frames echoes c)
    (hs : Echoes s) {moves : List Move} (hrun : x.run moves = some x') :
    (∃ frames' echoes' c', Sound s seat stream x' frames' echoes' c') ∧
      x.achieved + x'.outstanding + moves.length ≤ x'.achieved + x.outstanding := by
  induction moves generalizing x frames echoes c with
  | nil =>
    cases hrun
    exact ⟨⟨_, _, _, h⟩, Nat.le_refl _⟩
  | cons move moves ih =>
    obtain ⟨y, hplay, hrun⟩ := Option.bind_eq_some_iff.mp hrun
    obtain ⟨frames', echoes', c', hy, hadvances⟩ := h.plays hs hplay
    obtain ⟨hsound, hmoves⟩ := ih hy hrun
    refine ⟨hsound, ?_⟩
    unfold Advances at hadvances
    rw [List.length_cons]
    omega

/-! ## The beginning and the end -/

/-- A session that has begun over a fresh stream. -/
theorem sound_start {capacity timeout now : Nat} (hcapacity : 0 < capacity) {session : Session}
    {handler : Recording C P}
    (hstart : Session.start (⟨s, []⟩ : Recording C P) { capacity } timeout now =
      (.ok session, handler)) (stream : Bytes) :
    (s.onReady {}).1 = .ok session.seat ∧
      ∃ c, Sound s session.seat stream ⟨session, handler, stream, []⟩ [] [] c := by
  have hready : SessionHandler.onReady (⟨s, []⟩ : Recording C P) {} =
    ((s.onReady {}).1, Recording.tell ⟨s, []⟩ (.ready {})) := rfl
  unfold Session.start at hstart
  rw [hready] at hstart
  cases hseat : (s.onReady {}).1 with
  | error refused =>
    rw [hseat] at hstart
    cases hstart
  | ok seat =>
    rw [hseat] at hstart
    cases hstart
    obtain ⟨c, haccount, hactive, htransport⟩ := Server.account_onReady hseat
    refine ⟨rfl, c, {
      seat_eq := rfl
      told := ⟨rfl, [], rfl, nofun⟩
      account := haccount
      framed := nofun
      arriving := rfl
      finished := nofun
      leaving := by rw [htransport]; rfl
      queued := by rw [htransport]; exact nofun
      idle := nofun
      nearFinished := rfl
      readFault := rfl
      writeFault := rfl
      farGone := rfl
      capacity := hcapacity
      stage := .reading _ ⟨rfl, hactive, by rw [htransport]; rfl, rfl, rfl⟩ }⟩

/-- What has come of a session that has read a stream to its end. -/
structure Outcome (s : Server C P) (seat : Seat) (stream : Bytes) (x : Conversation C P) : Prop where
  /-- The reports are what the server was told, and nothing else happened to it. -/
  server : x.handler.server = s.after x.handler.calls
  /-- Each whole frame of the stream was reported, in order, and after them the end. -/
  reports : x.reports = .ready {} ::
    ((Frame.split stream).1.map (.frame seat) ++ [.closed seat (endOf (Frame.split stream).2)])
  /-- Listeners hear of the beginning, of the packets that were read, and of the end. -/
  news : x.handler.server.dispatcher = s.dispatcher.hear
    ((News.active :: ((Frame.split stream).1.filterMap s.hub.packetOf).map News.packet ++
      [Server.endNews (endOf (Frame.split stream).2)]).map (⟨some (s.lastId + 1), ·⟩))
  /-- All frames are in the account, and the peer gets what was submitted. -/
  account : ∃ echoes c, s.Account x.handler.server seat (Frame.split stream).1 echoes c ∧
    x.heard ++ x.session.pipe.toFar = echoes.flatten

theorem Sound.outcome (h : Sound s seat stream x frames echoes c)
    (hready : (s.onReady {}).1 = .ok seat) (hover : x.session.phase = .over) :
    Outcome s seat stream x := by
  have hstage := h.stage
  rw [hover] at hstage
  cases hstage with
  | done hended hidle =>
    obtain ⟨hserver, more, hcalls, hat⟩ := h.told
    -- nothing is on its way any longer, so the stream is what was taken off and what is left
    have hsplit : Frame.split stream = (frames, x.session.received) := by
      rw [← h.arriving, hended.toNear, hended.unwritten, List.append_nil, List.append_nil]
      exact Frame.split_flatten_append h.framed hended.left
    -- the report of the beginning is the first call, and the other reports come after it
    have hmore : more.filter Server.Call.isReport =
        frames.map (.frame seat) ++ [.closed seat (endOf x.session.received)] := by
      have hreports := hended.reports
      rw [Conversation.reports, hcalls] at hreports
      exact (List.cons.inj hreports).2
    have hleaving := h.leaving
    rw [(h.idle hidle).1, (h.idle hidle).2, List.append_nil, List.flatten_nil, List.append_nil]
      at hleaving
    refine ⟨hserver, ?_, ?_, echoes, c, ?_, hleaving⟩
    · rw [hsplit]
      exact hended.reports
    · rw [hsplit, hserver, hcalls]
      exact Server.dispatcher_of_reports hready hat hmore
    · rw [hsplit]
      exact h.account

/-- Let a session begin on a server, and let the peer write any stream in chunks of any size, finish it
    and read what comes back. If no deadline comes, the session gets over in whatever order reader,
    writer and peer take their turns; and then what the server was told, what listeners heard, what
    was counted and what was sent back are determined by the bytes of the stream. -/
theorem reports_determined_by_stream [LawfulPacket P] [LawfulProbe P] {s : Server C P}
    (hs : Echoes s) {capacity timeout now : Nat} (hcapacity : 0 < capacity) {session : Session}
    {handler : Recording C P}
    (hstart : Session.start (⟨s, []⟩ : Recording C P) { capacity } timeout now =
      (.ok session, handler)) (stream : Bytes) :
    ∃ bound, ∀ moves x, Conversation.run ⟨session, handler, stream, []⟩ moves = some x →
      moves.length ≤ bound ∧
      (x.session.phase ≠ .over → ∃ move, (x.play move).isSome) ∧
      (x.session.phase = .over → Outcome s session.seat stream x) := by
  obtain ⟨hready, c, hsound⟩ := sound_start hcapacity hstart stream
  refine ⟨most stream.length + outstanding ⟨session, handler, stream, []⟩, fun moves x hrun => ?_⟩
  obtain ⟨⟨frames, echoes, c', hx⟩, hmoves⟩ := hsound.runs hs hrun
  have hmost := hx.achieved_le hs
  exact ⟨by omega, hx.goesOn, hx.outcome hready⟩

/-- A probe, a frame of an unknown kind and half a frame, in two chunks. -/
theorem probe_returned_and_cut_reported :
    let s : Server Unit Ping :=
      { hub := { codec := Codec.withScratchSize (.ofRegistry ⟨[⟨0⟩]⟩) 64 }, config := {}
        makeContext := fun _ => () }
    let begun := Session.start (⟨s, []⟩ : Recording Unit Ping) { capacity := 64 } 30000 0
    let probe : Bytes := [0, 8, 0, 0, 0, 0, 0, 0, 0, 0, 7]
    let unknown : Bytes := [0, 1, 9, 5]
    let moves : List Move := [.peerWrites 5, .reads 1, .peerWrites 20, .reads 2, .reads 2, .writes,
      .reads 2, .writes, .peerFinishes, .reads 3, .peerReads, .writes, .ends]
    ∃ session x, begun.1 = .ok session ∧
      Conversation.run ⟨session, begun.2, probe ++ unknown ++ [0], []⟩ moves = some x ∧
      x.reports = [.ready {}, .frame 0 probe, .frame 0 unknown, .closed 0 .protocolException] ∧
      x.heard ++ x.session.pipe.toFar = probe := by
  intro s begun probe unknown moves
  let session : Session := ⟨0, 30000, { capacity := 64 }, .reading 30000, [], [], true⟩
  have hbegun : begun.1 = .ok session := by rfl
  have hs : Echoes s := ⟨BufferPool.uniform_ofSize Codec.scratchCount 64, trivial, Compressors.brief_standard,
    by decide⟩
  have hsplit : Frame.split (probe ++ unknown ++ [0]) = ([probe, unknown], [0]) :=
    @Frame.split_flatten_append [probe, unknown] [0] (by decide) (by decide)
  have hends : (Conversation.run ⟨session, begun.2, probe ++ unknown ++ [0], []⟩ moves).map
      (·.session.phase) = some .over := by decide +kernel
  obtain ⟨x, hrun, hover⟩ := Option.map_eq_some_iff.mp hends
  obtain ⟨bound, hall⟩ := reports_determined_by_stream hs (by decide) (Prod.ext hbegun rfl)
    (probe ++ unknown ++ [0])
  obtain ⟨-, reports, -, echoes, c, account, hheard⟩ := (hall moves x hrun).2.2 hover
  rw [hsplit] at reports account
  have hpackets : [probe, unknown].filterMap s.hub.packetOf = [⟨7⟩] := by rfl
  have hprobe : (s.hub.codec.encodeAll (probes [⟨7⟩])).1.map Except.toOption = [probe].map some := by
    decide +kernel
  have hechoes : echoes = [probe] := by
    have hencoded := account.encoded
    rw [hpackets] at hencoded
    rw [hencoded, List.map_map] at hprobe
    exact (List.map_inj_right fun _ _ => Option.some.inj).mp hprobe
  refine ⟨session, x, hbegun, hrun, reports, ?_⟩
  rw [hheard, hechoes]
  rfl

end ShardMesh.Conversation
