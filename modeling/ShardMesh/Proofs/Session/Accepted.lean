import ShardMesh.Proofs.Session.Flushing

/-!
# What is accepted is written

The frames that the transport of a session accepts go to the peer, all of them and in order, before the
session shuts its side of the stream down. A server answers a probe with such a frame.
-/

namespace ShardMesh

variable {C P : Type} [Packet P]

open SessionHandler (Uses)

/-! ## Probes that come to a server -/

/-- A probe that comes to an active connection with an open transport is submitted to it. -/
theorem Server.uses_onFrame_of_probe [LawfulPacket P] [LawfulProbe P] {s : Server C P}
    (hs : Conversation.Echoes s) {seat : Seat} {c : Connection C} (hc : s.roster.get? seat = some c)
    (hactive : c.active = true) (hopen : c.transport.isOpen = true) {frame : Bytes} {packet : P}
    {ping : Ping} (hread : s.hub.codec.tryDecode frame = .ok (some packet))
    (hping : Packet.ping? packet = some ping) :
    ∃ echo, (s.hub.codec.encode packet).1 = .ok echo ∧ Uses seat s [echo] (s.onFrame seat frame) := by
  obtain ⟨echo, hecho⟩ := Codec.exists_encode_probe hs.uniform hs.key hs.brief hs.room hread hping
  refine ⟨echo, hecho, ?_⟩
  have htake : (c.take s.hub frame).1.transport =
      { c.transport with queue := c.transport.queue ++ [echo] } := by
    have hactive' : (c.traded frame.length 1 []).active = true := hactive
    have htransport : (c.traded frame.length 1 []).transport = c.transport := by
      simp [Connection.traded]
    have hecho' : ((s.hub.count (·.packetReceived (UInt64.ofNat frame.length))).codec.encode
        packet).1 = .ok echo := hecho
    unfold Connection.take
    rw [Connection.receive_of_read hread]
    dsimp only
    rw [hping]
    dsimp only
    rw [Connection.send_of_open hactive' (htransport ▸ hopen) hecho', ← htransport]
    rfl
  have hafter : (s.onFrame seat frame).roster.get? seat = some (c.take s.hub frame).1 := by
    rw [(Server.onFrame_eq_take hc hactive frame).1]
    exact Server.get?_set hc _
  refine Server.uses_of_get? hc hafter ?_
  rw [htake]
  exact (Transport.Takes.nothing _).submit echo (Transport.submit_eq_ok_iff.mpr ⟨hopen, rfl⟩)

namespace Outflow

/-- The reader comes to a probe that the server can send back. -/
structure AtProbe (x : Outflow (Server C P)) (packet : P) : Prop where
  echoes : Conversation.Echoes x.handler
  reading : ∃ deadline, x.session.phase = .reading deadline
  connection : ∃ c, x.handler.roster.get? x.session.seat = some c ∧ c.active = true ∧
    c.transport.isOpen = true
  arrived : ∃ frame received, Frame.next? x.session.received = some (frame, received) ∧
    x.handler.hub.codec.tryDecode frame = .ok (some packet)
  probe : ∃ ping, Packet.ping? packet = some ping

/-- When the reader takes the probe off the stream, its echo is accepted. -/
theorem AtProbe.reads [LawfulPacket P] [LawfulProbe P] {x : Outflow (Server C P)} {packet : P}
    (h : AtProbe x packet) (now : Nat) :
    ∃ y echo, x.session.readStep x.handler now = some (y.session, y.handler) ∧ Step x y ∧
      (x.handler.hub.codec.encode packet).1 = .ok echo ∧ y.accepted = x.accepted ++ [echo] := by
  obtain ⟨deadline, hphase⟩ := h.reading
  obtain ⟨c, hc, hactive, hopen⟩ := h.connection
  obtain ⟨frame, received, hnext, hread⟩ := h.arrived
  obtain ⟨ping, hping⟩ := h.probe
  obtain ⟨echo, hecho, huses⟩ := Server.uses_onFrame_of_probe h.echoes hc hactive hopen hread hping
  have hclosed : (SessionHandler.transport x.handler x.session.seat).closed = false := by
    rw [Server.transport_of_get? hc]
    simpa using (Bool.and_eq_true_iff.mp hopen).1
  have hstep : x.session.readStep x.handler now =
      some ({ x.session with received, phase := .reading (now + x.session.readTimeout) },
        x.handler.onFrame x.session.seat frame) := by
    rw [Session.readStep_of_open hclosed, Session.readOn, hphase]
    dsimp only
    rw [hnext]
    rfl
  exact ⟨_, echo, hstep, .reads hstep huses, hecho, rfl⟩

/-! ## Whatever happens in whatever order -/

/-- A session has begun, and nothing was written to its stream before. -/
inductive Begun {H : Type} [SessionHandler H] : Outflow H → Prop where
  | start {h₀ h : H} {pipe : Pipe} {readTimeout now : Nat} {s : Session}
      (hstart : Session.start h₀ pipe readTimeout now = (.ok s, h)) (htoFar : pipe.toFar = [])
      (hnear : pipe.nearFinished = false) : Begun (begin s h)

section

variable {H : Type} [SessionHandler H] [LawfulHandler H] {x y : Outflow H}

theorem Begun.sound (hbegun : Begun x) : Sound x := by
  obtain ⟨hstart, htoFar, hnear⟩ := hbegun
  exact sound_begin hstart htoFar hnear

omit [LawfulHandler H] in
/-- All that was accepted is written before the writer shuts its side down. -/
theorem Sound.written_of_finished (h : Sound x) (hfinished : x.session.pipe.nearFinished = true) :
    x.written = x.accepted.flatten := by
  have hwriting : x.session.writing = false := by simpa using h.nearFinished.symm.trans hfinished
  obtain ⟨-, hsending, hqueue⟩ := h.idle hwriting
  have hconserved := h.conserved
  rw [hsending, hqueue, List.flatten_nil, List.append_nil, List.append_nil] at hconserved
  exact hconserved

omit [LawfulHandler H] in
/-- A frame is refused when the transport is closed, and then only. -/
theorem Sound.submit_eq (h : Sound x) (frame : Bytes) :
    x.transport.submit frame = if x.transport.closed then .error .connectionClosed
      else .ok { x.transport with queue := x.transport.queue ++ [frame] } := by
  unfold Transport.submit
  by_cases hclosed : x.transport.closed = true
  · rw [if_pos hclosed, if_pos hclosed]
  · have hwriting : x.session.writing = true := by
      cases hidle : x.session.writing with
      | true => rfl
      | false => exact absurd (h.idle hidle).1 hclosed
    have hattended : ¬x.transport.abandoned = true := by
      rw [h.attended hwriting]
      decide
    rw [if_neg hclosed, if_neg hclosed, if_neg hattended]

end

/-- Let a session be driven, with frames submitted, the transport closed, reader and writer and peer
taking their steps in any order, as long as no write fails and the writer is not cut off. What it
writes are the accepted frames, in the order of acceptance, each once: what is not written yet is being
written or waits. The writer shuts its side of the stream down when all is written. Every frame is
accepted until the transport is closed, and none after that; those that were accepted before can always
still be written, and the peer hears them all. The reader takes its steps at any time. A frame is
submitted in one step, so nothing is said of a submission that sees the transport open and queues its
frame when it has been closed in between.

A probe that comes to a server while its connection is open is answered so, and its echo is written
behind all that was accepted before. -/
theorem accepted_frames_are_written :
    (∀ (H : Type) [SessionHandler H] [LawfulHandler H] (b x : Outflow H), Begun b → Run b x →
      x.written ++ x.session.sending ++ x.transport.queue.flatten = x.accepted.flatten ∧
      (x.session.pipe.nearFinished = true → x.written = x.accepted.flatten) ∧
      (∀ now session handler, x.session.readStep x.handler now = some (session, handler) →
        ∃ frames, Step x { x with session, handler, accepted := x.accepted ++ frames }) ∧
      (∀ frame, x.transport.submit frame = if x.transport.closed then .error .connectionClosed
        else .ok { x.transport with queue := x.transport.queue ++ [frame] }) ∧
      (x.transport.closed = true →
        (∀ y, Run x y → y.transport.closed = true ∧ y.accepted = x.accepted) ∧
        (Closing x →
          ∃ y, Run x y ∧ y.session.pipe.nearFinished = true ∧ y.heard = x.accepted.flatten))) ∧
    ∀ (C P : Type) [Packet P] [LawfulPacket P] [LawfulProbe P] (b x : Outflow (Server C P)) (packet : P)
      (now : Nat), Begun b → Run b x → AtProbe x packet →
      ∃ y echo, x.session.readStep x.handler now = some (y.session, y.handler) ∧ Step x y ∧
        (x.handler.hub.codec.encode packet).1 = .ok echo ∧ y.accepted = x.accepted ++ [echo] ∧
        ∀ z, Run y z → z.session.pipe.nearFinished = true →
          (x.accepted ++ [echo]).flatten <+: z.written := by
  refine ⟨fun H _ _ b x hbegun hrun => ?_, fun C P _ _ _ b x packet now hbegun hrun hprobe => ?_⟩
  · have hx : Sound x := hbegun.sound.run hrun
    refine ⟨hx.conserved, hx.written_of_finished, fun now session handler => hx.exists_reads,
      hx.submit_eq, fun hclosed => ⟨?_, ?_⟩⟩
    · exact fun y hrun => hx.closed_run hrun hclosed
    · exact fun hclosing => hclosing.exists_run hx
  · obtain ⟨y, echo, hread, hstep, hecho, haccepted⟩ := hprobe.reads now
    refine ⟨y, echo, hread, hstep, hecho, haccepted, fun z hlater hfinished => ?_⟩
    have hz : Sound z := hbegun.sound.run ((hrun.tail hstep).trans hlater)
    obtain ⟨more, hmore⟩ := accepted_of_run hlater
    rw [hz.written_of_finished hfinished, ← hmore, haccepted]
    exact ⟨more.flatten, List.flatten_append.symm⟩

/-- A probe has arrived when the transport is closed behind its echo. -/
theorem probe_answered_before_the_end :
    let s : Server Unit Ping :=
      { hub := { codec := Codec.withScratchSize (.ofRegistry ⟨[⟨0⟩]⟩) 64 }, config := {}
        makeContext := fun _ => () }
    let probe : Bytes := [0, 8, 0, 0, 0, 0, 0, 0, 0, 0, 7]
    let begun := Session.start s { capacity := 4, toNear := probe } 30000 0
    ∃ session z, begun.1 = .ok session ∧ Run (begin session begun.2) z ∧
      z.session.pipe.nearFinished = true ∧ z.heard = probe := by
  intro s probe begun
  let session : Session := ⟨0, 30000, { capacity := 4, toNear := probe }, .reading 30000, [], [], true⟩
  have hbegun : begun.1 = .ok session := by rfl
  have hstart : Begun (begin session begun.2) := .start (Prod.ext hbegun rfl) rfl rfl
  obtain ⟨hall, hprobes⟩ := accepted_frames_are_written
  -- the bytes of the probe arrive
  let arrived : Session := { session with pipe := { capacity := 4 }, received := probe }
  let x : Outflow (Server Unit Ping) := ⟨arrived, begun.2, false, [], []⟩
  have hseated : SessionHandler.Seated begun.2 0 := Server.seated_iff.mpr ⟨_, rfl⟩
  have harrives : Run (begin session begun.2) x := by
    have hstep : session.readStep begun.2 1 = some (arrived, begun.2) := by rfl
    exact .single (.reads hstep (.refl hseated))
  have hdecodes : s.hub.codec.tryDecode probe = .ok (some ⟨7⟩) := by
    have hpacket : s.hub.packetOf probe = some ⟨7⟩ := by rfl
    rw [Hub.packetOf_eq] at hpacket
    split at hpacket
    · rename_i hread
      rw [hread, hpacket]
    · cases hpacket
  have hat : AtProbe x ⟨7⟩ :=
    { echoes := ⟨BufferPool.uniform_ofSize Codec.scratchCount 64, trivial, Compressors.brief_standard,
        by decide⟩
      reading := ⟨_, rfl⟩
      connection := ⟨_, rfl, rfl, rfl⟩
      arrived := ⟨probe, [], by decide, hdecodes⟩
      probe := ⟨_, rfl⟩ }
  obtain ⟨y, echo, hread, hstep, hecho, haccepted, -⟩ := hprobes Unit Ping _ x ⟨7⟩ 2 hstart harrives hat
  have hecho' : (x.handler.hub.codec.encode ⟨7⟩).1.toOption = some probe := by decide +kernel
  obtain rfl : echo = probe := by
    rw [hecho] at hecho'
    exact Option.some.inj hecho'
  have hy : Sound y := hstart.sound.run (harrives.tail hstep)
  -- the transport is closed
  let z : Outflow (Server Unit Ping) :=
    { y with handler := SessionHandler.setTransport y.handler y.session.seat y.transport.close }
  have htransport : z.transport = y.transport.close := hy.seated _
  have hcloses : Step y z := by
    have huses : SessionHandler.Uses y.session.seat y.handler [] z.handler := by
      refine ⟨LawfulHandler.setTransport _ hy.seated, ?_⟩
      rw [show SessionHandler.transport z.handler y.session.seat = _ from htransport]
      exact .close (.nothing _)
    have hstep := Step.uses huses
    rwa [List.append_nil] at hstep
  have hpipe : (x.session.readStep x.handler 2).map (·.1.pipe) = some { capacity := 4 } := by
    decide +kernel
  have hqueue : (x.session.readStep x.handler 2).map
      (fun r => (SessionHandler.transport r.2 r.1.seat).queue) = some [probe] := by decide +kernel
  rw [hread] at hpipe hqueue
  have hclosing : Closing z := by
    have hpipe : z.session.pipe = { capacity := 4 } := Option.some.inj hpipe
    have hqueue : z.transport.queue = [probe] := htransport ▸ Option.some.inj hqueue
    refine ⟨htransport ▸ rfl, ?_, ?_, ?_, ?_⟩
    · rw [hpipe]
    · rw [hpipe]
    · rw [hpipe]
      decide
    · rw [hqueue]
      decide
  -- so the peer hears the echo
  have hrun : Run (begin session begun.2) z := (harrives.tail hstep).tail hcloses
  obtain ⟨w, hlater, hfinished, hheard⟩ :=
    ((hall _ _ z hstart hrun).2.2.2.2 hclosing.closed).2 hclosing
  refine ⟨session, w, hbegun, hrun.trans hlater, hfinished, ?_⟩
  rw [hheard, show z.accepted = _ from haccepted]
  rfl

end Outflow
end ShardMesh
