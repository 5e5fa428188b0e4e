import ShardMesh.Proofs.Probe
import ShardMesh.Proofs.Server.Calls

/-!
# What frames do to a connection that takes them

As long as a connection is active and its transport open, every frame counts with its bytes, every
packet with one, and every probe goes back in a frame of its own. A frame that is refused raises one
counter. `Account` is the state of a connection after some frames.
-/

namespace ShardMesh

variable {C P : Type} [Packet P]

/-! ## Encoding in a row -/

/-- Encodes packets one after the other. -/
def Codec.encodeAll (c : Codec P) : List P → List (Except ProtocolError Bytes) × Codec P
  | [] => ([], c)
  | p :: packets =>
    let (result, c) := c.encode p
    let (results, c) := c.encodeAll packets
    (result :: results, c)

theorem Codec.encodeAll_cons (c : Codec P) (p : P) (packets : List P) :
    c.encodeAll (p :: packets) = ((c.encode p).1 :: ((c.encode p).2.encodeAll packets).1,
      ((c.encode p).2.encodeAll packets).2) := rfl

theorem Codec.encodeAll_append (c : Codec P) (packets more : List P) :
    c.encodeAll (packets ++ more) =
      ((c.encodeAll packets).1 ++ ((c.encodeAll packets).2.encodeAll more).1,
        ((c.encodeAll packets).2.encodeAll more).2) := by
  induction packets generalizing c with
  | nil => rfl
  | cons p packets ih => rw [List.cons_append, encodeAll_cons, encodeAll_cons, ih]; rfl

/-- The frames of packets have a header each, and at most the largest payload. -/
theorem Codec.length_of_encodeAll {c : Codec P} {packets : List P} {frames : List Bytes}
    (hc : c.scratch.Uniform) (h : (c.encodeAll packets).1 = frames.map .ok) {frame : Bytes}
    (hframe : frame ∈ frames) :
    Frame.headerLength ≤ frame.length ∧ frame.length ≤ Frame.headerLength + Frame.maxPayload := by
  induction packets generalizing c frames with
  | nil =>
    rw [List.map_eq_nil_iff.mp h.symm] at hframe
    cases hframe
  | cons p packets ih =>
    rw [encodeAll_cons] at h
    cases frames with
    | nil => cases h
    | cons first frames =>
      obtain ⟨hfirst, hmore⟩ := List.cons.inj h
      rcases List.mem_cons.mp hframe with rfl | hframe
      · exact length_of_encode hc hfirst
      · exact ih ((encode_continues c p hc).uniform hc) hmore hframe

theorem Codec.length_encodeAll (c : Codec P) (packets : List P) :
    (c.encodeAll packets).1.length = packets.length := by
  induction packets generalizing c with
  | nil => rfl
  | cons p packets ih => rw [encodeAll_cons, List.length_cons, ih, List.length_cons]

theorem Codec.encodeAll_continues (c : Codec P) (packets : List P) (hc : c.scratch.Uniform) :
    c.Continues (c.encodeAll packets).2 := by
  induction packets generalizing c with
  | nil => exact .refl c
  | cons p packets ih =>
    have hfirst := encode_continues c p hc
    exact hfirst.trans (ih _ (hfirst.uniform hc))

/-- The probes among some packets. -/
def probes (packets : List P) : List P := packets.filter fun p => (Packet.ping? p).isSome

/-- Whether a hub refuses a frame. -/
def Hub.refuses (h : Hub P) (frame : Bytes) : Bool := !(h.codec.tryDecode frame).isOk

/-! ## Single frames -/

namespace Connection

/-- What a frame comes to on an active connection: it is received, and a probe is sent back. -/
def take (c : Connection C) (hub : Hub P) (frame : Bytes) : Connection C × Hub P :=
  match c.receive hub frame with
  | (none, c, hub) => (c, hub)
  | (some packet, c, hub) =>
    match Packet.ping? packet with
    | some _ => (c.send hub packet).2
    | none => (c, hub)

/-- While the transport is open, a probe that is not refused is the one thing that is submitted, and
    a frame that is refused raises the counter of errors. -/
theorem take_of_open {c : Connection C} (hactive : c.active = true)
    (hopen : c.transport.isOpen = true) {hub : Hub P} {frame : Bytes}
    (hecho : ∀ packet ping, hub.codec.tryDecode frame = .ok (some packet) →
      Packet.ping? packet = some ping → ∃ echo, (hub.codec.encode packet).1 = .ok echo) :
    ∃ reply hub', c.take hub frame =
        (c.traded frame.length (hub.packetOf frame).toList.length reply, hub') ∧
      hub.codec.encodeAll (probes (hub.packetOf frame).toList) = (reply.map .ok, hub'.codec) ∧
      hub'.metrics.protocolErrors =
        hub.metrics.protocolErrors + UInt64.ofNat (hub.refuses frame).toNat := by
  have hnone : hub.metrics.protocolErrors = hub.metrics.protocolErrors + UInt64.ofNat false.toNat :=
    (UInt64.add_zero _).symm
  unfold take Hub.refuses
  rw [hub.packetOf_eq]
  cases hdecode : hub.codec.tryDecode frame with
  | error e =>
    rw [receive_of_refused hdecode]
    exact ⟨[], _, rfl, rfl, rfl⟩
  | ok found =>
    cases found with
    | none =>
      rw [receive_of_none hdecode]
      exact ⟨[], _, rfl, rfl, hnone⟩
    | some packet =>
      rw [receive_of_read hdecode]
      dsimp only
      cases hping : Packet.ping? packet with
      | none =>
        have hprobes : probes [packet] = [] := by simp [probes, hping]
        exact ⟨[], _, rfl, by rw [Option.toList_some, hprobes]; rfl, hnone⟩
      | some ping =>
        have hprobes : probes [packet] = [packet] := by simp [probes, hping]
        obtain ⟨echo, hecho⟩ := hecho packet ping hdecode hping
        have hactive' : (c.traded frame.length 1 []).active = true := hactive
        have hopen' : (c.traded frame.length 1 []).transport.isOpen = true := by
          simpa [traded, Transport.isOpen] using hopen
        have hecho' : ((hub.count (·.packetReceived (UInt64.ofNat frame.length))).codec.encode
            packet).1 = .ok echo := hecho
        dsimp only
        rw [send_of_open hactive' hopen' hecho', traded_traded]
        refine ⟨[echo], _, rfl, ?_, hnone⟩
        rw [Option.toList_some, hprobes, Codec.encodeAll_cons, hecho]
        rfl

end Connection

namespace Server

/-! ## The account of a connection -/

/-- The state of a connection that took some frames, with what was submitted to its transport, beside
    the state of the server before. -/
structure Account (before s : Server C P) (seat : Seat) (frames echoes : List Bytes)
    (c : Connection C) : Prop where
  connection : s.roster.get? seat = some c
  /-- Every probe was encoded, in order, and nothing else. -/
  encoded : before.hub.codec.encodeAll (probes (frames.filterMap before.hub.packetOf)) =
    (echoes.map .ok, s.hub.codec)
  refused : s.hub.metrics.protocolErrors =
    before.hub.metrics.protocolErrors + UInt64.ofNat (frames.countP before.hub.refuses)
  traffic : c.traffic = {
    packetsSent := UInt64.ofNat echoes.length
    bytesSent := UInt64.ofNat echoes.flatten.length
    packetsReceived := UInt64.ofNat (frames.filterMap before.hub.packetOf).length
    bytesReceived := UInt64.ofNat frames.flatten.length }

/-- The account does not change if neither the hub nor the traffic does. -/
theorem Account.congr {before s s' : Server C P} {seat : Seat} {frames echoes : List Bytes}
    {c c' : Connection C} (h : before.Account s seat frames echoes c)
    (hconnection : s'.roster.get? seat = some c') (hcodec : s'.hub.codec = s.hub.codec)
    (herrors : s'.hub.metrics.protocolErrors = s.hub.metrics.protocolErrors)
    (htraffic : c'.traffic = c.traffic) : before.Account s' seat frames echoes c' :=
  ⟨hconnection, by rw [hcodec, h.encoded], by rw [herrors, h.refused], by rw [htraffic, h.traffic]⟩

/-- The account after one more frame: what was submitted for it comes last. -/
theorem Account.snoc {before s s' : Server C P} {seat : Seat} {frames echoes reply : List Bytes}
    {c : Connection C} (h : before.Account s seat frames echoes c) {frame : Bytes}
    (hconnection : s'.roster.get? seat =
      some (c.traded frame.length (before.hub.packetOf frame).toList.length reply))
    (hencoded : s.hub.codec.encodeAll (probes (before.hub.packetOf frame).toList) =
      (reply.map .ok, s'.hub.codec))
    (herrors : s'.hub.metrics.protocolErrors =
      s.hub.metrics.protocolErrors + UInt64.ofNat (before.hub.refuses frame).toNat) :
    before.Account s' seat (frames ++ [frame]) (echoes ++ reply)
      (c.traded frame.length (before.hub.packetOf frame).toList.length reply) := by
  have hpackets : (frames ++ [frame]).filterMap before.hub.packetOf =
      frames.filterMap before.hub.packetOf ++ (before.hub.packetOf frame).toList := by
    rw [List.filterMap_append]
    cases hpacket : before.hub.packetOf frame <;> simp [hpacket]
  have hrefused : [frame].countP before.hub.refuses = (before.hub.refuses frame).toNat := by
    cases hrefuses : before.hub.refuses frame <;> simp [hrefuses]
  refine ⟨hconnection, ?_, ?_, ?_⟩
  · rw [hpackets, probes, List.filter_append, ← probes, ← probes, Codec.encodeAll_append, h.encoded,
      hencoded, List.map_append]
  · rw [herrors, h.refused, List.countP_append, hrefused, UInt64.ofNat_add, UInt64.add_assoc]
  · rw [hpackets, Connection.traded, h.traffic]
    simp [UInt64.ofNat_add]

theorem get?_set {r : Roster C} {seat : Seat} {c : Connection C} (h : r.get? seat = some c)
    (c' : Connection C) : (r.set seat c').get? seat = some c' :=
  List.getElem?_set_self (List.getElem?_eq_some_iff.mp h).1

/-- A session that begins has an empty account. -/
theorem account_onReady {s : Server C P} {transport : Transport} {seat : Seat}
    (h : (s.onReady transport).1 = .ok seat) :
    ∃ c, s.Account (s.onReady transport).2 seat [] [] c ∧ c.active = true ∧
      c.transport = transport := by
  obtain ⟨hseat, registry, hafter⟩ := onReady_of_ok h
  refine ⟨{ id := some (s.lastId + 1), transport
            context := s.makeContext s.roster.connections.length }, ⟨?_, ?_, ?_, rfl⟩, rfl, rfl⟩
  · rw [hafter, hseat]
    exact List.getElem?_concat_length
  · rw [hafter]
    rfl
  · rw [hafter]
    exact (UInt64.add_zero _).symm

theorem Account.setTransport {before s : Server C P} {seat : Seat} {frames echoes : List Bytes}
    {c : Connection C} (h : before.Account s seat frames echoes c) (transport : Transport) :
    before.Account (SessionHandler.setTransport s seat transport) seat frames echoes
      { c with transport } := by
  refine h.congr ?_ rfl rfl rfl
  have hmodify := List.getElem?_modify_eq (fun c : Connection C => { c with transport }) seat
    s.roster.connections
  rw [show s.roster.connections[seat]? = some c from h.connection] at hmodify
  exact hmodify

/-- The end of a session leaves its account as it is. -/
theorem Account.onClosed {before s : Server C P} {seat : Seat} {frames echoes : List Bytes}
    {c : Connection C} (h : before.Account s seat frames echoes c) (hactive : c.active = true)
    (reason : DisconnectReason) :
    before.Account (s.onClosed seat reason) seat frames echoes { c with active := false } := by
  have hclosed : (s.onClosed seat reason).roster = s.roster.set seat { c with active := false } ∧
      (s.onClosed seat reason).hub = s.hub.count (·.connectionClosed) := by
    unfold Server.onClosed
    rw [h.connection]
    dsimp only [Connection.markInactive]
    rw [hactive]
    exact ⟨rfl, rfl⟩
  have herrors : s.hub.metrics.connectionClosed.protocolErrors = s.hub.metrics.protocolErrors := by
    unfold Metrics.connectionClosed
    split <;> rfl
  refine h.congr ?_ ?_ ?_ rfl
  · rw [hclosed.1]
    exact get?_set h.connection _
  · rw [hclosed.2]
    rfl
  · rw [hclosed.2]
    exact herrors

theorem onFrame_eq_take {s : Server C P} {seat : Seat} {c : Connection C}
    (hc : s.roster.get? seat = some c) (hactive : c.active = true) (frame : Bytes) :
    (s.onFrame seat frame).roster = s.roster.set seat (c.take s.hub frame).1 ∧
      (s.onFrame seat frame).hub = (c.take s.hub frame).2 := by
  rw [onFrame_of_active hc hactive, Connection.take]
  rcases c.receive s.hub frame with ⟨_ | packet, c', hub'⟩
  · exact ⟨rfl, rfl⟩
  · dsimp only
    cases Packet.ping? packet <;> exact ⟨rfl, rfl⟩

/-- A frame that comes to an active connection with an open transport goes into its account. -/
theorem Account.onFrame {before s : Server C P} {seat : Seat} {frames echoes : List Bytes}
    {c : Connection C} (h : before.Account s seat frames echoes c) (hactive : c.active = true)
    (hopen : c.transport.isOpen = true)
    (hread : ∀ frame, s.hub.codec.tryDecode frame = before.hub.codec.tryDecode frame) (frame : Bytes)
    (hecho : ∀ packet ping, s.hub.codec.tryDecode frame = .ok (some packet) →
      Packet.ping? packet = some ping → ∃ echo, (s.hub.codec.encode packet).1 = .ok echo) :
    ∃ reply, before.Account (s.onFrame seat frame) seat (frames ++ [frame]) (echoes ++ reply)
      (c.traded frame.length (before.hub.packetOf frame).toList.length reply) := by
  have hpacket : s.hub.packetOf frame = before.hub.packetOf frame := by
    rw [Hub.packetOf_eq, Hub.packetOf_eq, hread]
  have hrefuses : s.hub.refuses frame = before.hub.refuses frame := by
    rw [Hub.refuses, Hub.refuses, hread]
  obtain ⟨reply, hub', htake, hencoded, herrors⟩ := Connection.take_of_open hactive hopen hecho
  obtain ⟨hroster, hhub⟩ := onFrame_eq_take h.connection hactive frame
  rw [htake, hpacket] at hroster
  rw [htake] at hhub
  rw [hpacket] at hencoded
  rw [hrefuses] at herrors
  refine ⟨reply, h.snoc ?_ ?_ ?_⟩
  · rw [hroster]
    exact get?_set h.connection _
  · rw [hhub, hencoded]
  · rw [hhub, herrors]

/-- A codec that seals with a proper key, whose compressors make little of little, and whose scratch
    buffers are long enough for a probe, sends every probe back that it reads. -/
theorem Account.onFrame_of_lawful [LawfulPacket P] [LawfulProbe P] {before s : Server C P}
    {seat : Seat} {frames echoes : List Bytes} {c : Connection C}
    (h : before.Account s seat frames echoes c) (huniform : before.hub.codec.scratch.Uniform)
    (hkey : before.hub.codec.cipher.HasKey) (hbrief : before.hub.codec.compressors.Brief)
    (hsize : 8 ≤ before.hub.codec.scratchSize)
    (hactive : c.active = true) (hopen : c.transport.isOpen = true) (frame : Bytes) :
    ∃ reply, before.Account (s.onFrame seat frame) seat (frames ++ [frame]) (echoes ++ reply)
      (c.traded frame.length (before.hub.packetOf frame).toList.length reply) := by
  -- the codec has only encoded echoes since, which leaves its settings as they were
  have hcontinues : before.hub.codec.Continues s.hub.codec := by
    have hall := before.hub.codec.encodeAll_continues
      (probes (frames.filterMap before.hub.packetOf)) huniform
    rwa [h.encoded] at hall
  refine h.onFrame hactive hopen (Codec.tryDecode_congr hcontinues.registry hcontinues.compression
    hcontinues.cipher) frame fun packet ping hread hping => ?_
  refine Codec.exists_encode_probe (hcontinues.uniform huniform) ?_ ?_ ?_ hread hping
  · rw [hcontinues.cipher]
    exact hkey
  · rw [hcontinues.compressors]
    exact hbrief
  · rw [hcontinues.scratchSize]
    exact hsize

end Server
end ShardMesh
