import ShardMesh.Connection
import ShardMesh.Proofs.RoundTrip

/-!
# What traffic changes

Whatever is sent or received over a connection, its id and its liveness stay, frames are read as
before, and no connection is counted. What changes is the traffic and what waits: `Connection.traded`
is the connection after some of it.
-/

namespace ShardMesh

variable {C P : Type} [Packet P]

namespace Codec

/-- Encoding changes neither the kinds of packets nor the stages. -/
theorem encode_settings (c : Codec P) (p : P) :
    (c.encode p).2.registry = c.registry ∧ (c.encode p).2.compression = c.compression ∧
      (c.encode p).2.cipher = c.cipher := by
  have hmarshal := marshal_snd c p
  unfold encode
  split
  · exact ⟨rfl, rfl, rfl⟩
  · split
    · rename_i h
      rw [h] at hmarshal
      rw [hmarshal]
      exact ⟨rfl, rfl, rfl⟩
    · rename_i h
      rw [h] at hmarshal
      subst hmarshal
      split
      · exact ⟨rfl, rfl, rfl⟩
      · dsimp only
        split <;> exact ⟨rfl, rfl, rfl⟩

/-- Reading a frame depends on the kinds of packets and the stages. -/
theorem tryDecode_congr {c c' : Codec P} (hregistry : c'.registry = c.registry)
    (hcompression : c'.compression = c.compression) (hcipher : c'.cipher = c.cipher)
    (frame : Bytes) : c'.tryDecode frame = c.tryDecode frame := by
  obtain ⟨registry, compression, cipher, scratch, nonces, compressors⟩ := c
  obtain ⟨registry', compression', cipher', scratch', nonces', compressors'⟩ := c'
  subst hregistry hcompression hcipher
  rfl

end Codec

/-! ## Hubs -/

/-- Another hub reads frames as a hub does, and has counted the same connections. -/
structure Hub.Alike (h h' : Hub P) : Prop where
  tryDecode : ∀ frame, h'.codec.tryDecode frame = h.codec.tryDecode frame
  total : h'.metrics.connectionsTotal = h.metrics.connectionsTotal
  active : h'.metrics.connectionsActive = h.metrics.connectionsActive

namespace Hub

/-- The packet that a hub reads from a frame, if there is one. -/
def packetOf (h : Hub P) (frame : Bytes) : Option P := (h.decode frame).1

theorem packetOf_eq (h : Hub P) (frame : Bytes) :
    h.packetOf frame = match h.codec.tryDecode frame with
      | .ok packet => packet
      | .error _ => none := by
  unfold packetOf decode Codec.decode
  cases h.codec.tryDecode frame <;> rfl

theorem Alike.refl (h : Hub P) : h.Alike h := ⟨fun _ => rfl, rfl, rfl⟩

theorem Alike.trans {a b c : Hub P} (h : a.Alike b) (h' : b.Alike c) : a.Alike c :=
  ⟨fun frame => (h'.tryDecode frame).trans (h.tryDecode frame), h'.total.trans h.total,
    h'.active.trans h.active⟩

theorem Alike.packetOf {h h' : Hub P} (halike : h.Alike h') (frame : Bytes) :
    h'.packetOf frame = h.packetOf frame := by
  rw [packetOf_eq, packetOf_eq, halike.tryDecode]

/-- A hub encodes as its codec does. -/
theorem encode_eq {h : Hub P} {packet : P} {result : Except ProtocolError Bytes}
    (hresult : (h.codec.encode packet).1 = result) :
    h.encode packet = (result, { h with codec := (h.codec.encode packet).2 }) := by
  rw [← hresult]
  rfl

theorem alike_encode (h : Hub P) (packet : P) : h.Alike (h.encode packet).2 := by
  obtain ⟨hregistry, hcompression, hcipher⟩ := h.codec.encode_settings packet
  exact ⟨Codec.tryDecode_congr hregistry hcompression hcipher, rfl, rfl⟩

theorem alike_decode (h : Hub P) (frame : Bytes) : h.Alike (h.decode frame).2 := by
  unfold decode Codec.decode
  cases h.codec.tryDecode frame <;> exact ⟨fun _ => rfl, rfl, rfl⟩

end Hub

/-! ## Connections -/

/-- Another state of a connection: the id is the same, and so is whether it is active. -/
def Connection.Alike (c c' : Connection C) : Prop := c'.id = c.id ∧ c'.active = c.active

namespace Connection

theorem Alike.trans {a b c : Connection C} (h : a.Alike b) (h' : b.Alike c) : a.Alike c :=
  ⟨h'.1.trans h.1, h'.2.trans h.2⟩

/-- Sending changes the traffic and what waits. -/
theorem alike_send (c : Connection C) (hub : Hub P) (packet : P) :
    c.Alike (c.send hub packet).2.1 ∧ hub.Alike (c.send hub packet).2.2 := by
  have hencode := hub.alike_encode packet
  unfold send
  split
  · exact ⟨⟨rfl, rfl⟩, .refl hub⟩
  · split
    · rename_i h
      rw [h] at hencode
      exact ⟨⟨rfl, rfl⟩, hencode.trans ⟨fun _ => rfl, rfl, rfl⟩⟩
    · rename_i h
      rw [h] at hencode
      split
      · exact ⟨⟨rfl, rfl⟩, hencode.trans ⟨fun _ => rfl, rfl, rfl⟩⟩
      · exact ⟨⟨rfl, rfl⟩, hencode.trans ⟨fun _ => rfl, rfl, rfl⟩⟩

/-- Receiving changes the traffic. -/
theorem alike_receive (c : Connection C) (hub : Hub P) (frame : Bytes) :
    c.Alike (c.receive hub frame).2.1 ∧ hub.Alike (c.receive hub frame).2.2 := by
  have hdecode := hub.alike_decode frame
  unfold receive
  dsimp only
  split
  · rename_i h
    rw [h] at hdecode
    exact ⟨⟨rfl, rfl⟩, hdecode⟩
  · rename_i h
    rw [h] at hdecode
    exact ⟨⟨rfl, rfl⟩, hdecode.trans ⟨fun _ => rfl, rfl, rfl⟩⟩

/-- The context stays with the connection. -/
theorem context_send (c : Connection C) (hub : Hub P) (packet : P) :
    (c.send hub packet).2.1.context = c.context := by
  unfold send
  split
  · rfl
  · split
    · rfl
    · split <;> rfl

theorem context_receive (c : Connection C) (hub : Hub P) (frame : Bytes) :
    (c.receive hub frame).2.1.context = c.context := by
  unfold receive
  dsimp only
  split <;> rfl

theorem receive_fst (c : Connection C) (hub : Hub P) (frame : Bytes) :
    (c.receive hub frame).1 = hub.packetOf frame := by
  unfold receive Hub.packetOf
  dsimp only
  split <;> simp_all

/-! ## What is traded -/

/-- The connection after some bytes, and some packets, have arrived and some frames have been
    submitted. -/
def traded (c : Connection C) (bytes packets : Nat) (frames : List Bytes) : Connection C :=
  { c with
    transport := { c.transport with queue := c.transport.queue ++ frames }
    traffic := {
      packetsSent := c.traffic.packetsSent + UInt64.ofNat frames.length
      bytesSent := c.traffic.bytesSent + UInt64.ofNat frames.flatten.length
      packetsReceived := c.traffic.packetsReceived + UInt64.ofNat packets
      bytesReceived := c.traffic.bytesReceived + UInt64.ofNat bytes } }

theorem traded_traded (c : Connection C) (bytes bytes' packets packets' : Nat)
    (frames frames' : List Bytes) :
    (c.traded bytes packets frames).traded bytes' packets' frames' =
      c.traded (bytes + bytes') (packets + packets') (frames ++ frames') := by
  simp [traded, UInt64.ofNat_add, UInt64.add_assoc]

/-- A packet that is not refused is submitted and counted. -/
theorem send_of_open {c : Connection C} (hactive : c.active = true)
    (hopen : c.transport.isOpen = true) {hub : Hub P} {packet : P} {frame : Bytes}
    (h : (hub.codec.encode packet).1 = .ok frame) :
    c.send hub packet = (.ok (), c.traded 0 0 [frame],
      { codec := (hub.codec.encode packet).2
        metrics := hub.metrics.packetSent (UInt64.ofNat frame.length) }) := by
  obtain ⟨hclosed, habandoned⟩ : c.transport.closed = false ∧ c.transport.abandoned = false := by
    simpa [Transport.isOpen] using hopen
  unfold send Transport.submit
  rw [hactive, Hub.encode_eq h, hclosed, habandoned]
  simp [traded, hactive, hclosed, habandoned, Hub.count]

theorem receive_of_refused {c : Connection C} {hub : Hub P} {frame : Bytes} {e : ProtocolError}
    (h : hub.codec.tryDecode frame = .error e) :
    c.receive hub frame = (none, c.traded frame.length 0 [], hub.count (·.protocolError)) := by
  simp [receive, Hub.decode, Codec.decode, h, traded]
  rfl

theorem receive_of_none {c : Connection C} {hub : Hub P} {frame : Bytes}
    (h : hub.codec.tryDecode frame = .ok none) :
    c.receive hub frame = (none, c.traded frame.length 0 [], hub) := by
  simp [receive, Hub.decode, Codec.decode, h, traded]

theorem receive_of_read {c : Connection C} {hub : Hub P} {frame : Bytes} {packet : P}
    (h : hub.codec.tryDecode frame = .ok (some packet)) :
    c.receive hub frame = (some packet, c.traded frame.length 1 [],
      hub.count (·.packetReceived (UInt64.ofNat frame.length))) := by
  simp [receive, Hub.decode, Codec.decode, h, traded]

/-- Sending over an active connection submits and counts one frame of the packet, or fails and leaves
    the connection as it is. Either way the codec has encoded the packet once. -/
theorem send_cases {c : Connection C} (hactive : c.active = true) (hub : Hub P)
    (packet : P) :
    ((∃ frame, (hub.encode packet).1 = .ok frame ∧ (c.send hub packet).1 = .ok () ∧
        (c.send hub packet).2.1 = c.traded 0 0 [frame]) ∨
      (∃ e, (c.send hub packet).1 = .error e) ∧ (c.send hub packet).2.1 = c) ∧
    (c.send hub packet).2.2.codec = (hub.codec.encode packet).2 := by
  cases hencode : (hub.codec.encode packet).1 with
  | error e =>
    unfold send
    rw [hactive, Hub.encode_eq hencode]
    exact ⟨.inr ⟨⟨e, rfl⟩, rfl⟩, rfl⟩
  | ok frame =>
    by_cases hopen : c.transport.isOpen = true
    · rw [send_of_open hactive hopen hencode]
      exact ⟨.inl ⟨frame, hencode, rfl, rfl⟩, rfl⟩
    · have hrefused : ∃ e, c.transport.submit frame = .error e := by
        unfold Transport.submit
        cases hclosed : c.transport.closed with
        | true => exact ⟨_, rfl⟩
        | false =>
          cases habandoned : c.transport.abandoned with
          | true => exact ⟨_, rfl⟩
          | false => simp [Transport.isOpen, hclosed, habandoned] at hopen
      obtain ⟨e, he⟩ := hrefused
      unfold send
      rw [hactive, Hub.encode_eq hencode]
      dsimp only
      rw [he]
      exact ⟨.inr ⟨⟨e, rfl⟩, rfl⟩, rfl⟩

end Connection
end ShardMesh
