import ShardMesh.Proofs.Wire.Canonical
import ShardMesh.Proofs.Server.Echo

/-!
# Packets go back as they came

A packet that is a row of fields is written as the bytes that it was read from. So a server that sends
a probe back compresses and encrypts the bytes that it had decrypted and decompressed, as far as the
probe is made of them.
-/

namespace ShardMesh

variable {P : Type} [Packet P]

/-- A probe is read from eight bytes. -/
theorem FieldRow.length_of_probe [FieldRow P] [LawfulProbe P] {p q : P} {buffer : Bytes}
    {offset stop n : Nat} (h : Packet.unmarshal p buffer offset stop = (.ok n, q)) {ping : Ping}
    (hping : Packet.ping? q = some ping) : n = 8 := by
  have hroom : (List.replicate (n + 8) (0 : UInt8)).length = n + 8 := List.length_replicate
  have hwritten : Packet.marshal q (List.replicate (n + 8) 0) 0 = _ :=
    marshal_of_unmarshal h (by omega)
  rw [LawfulProbe.marshal_probe q ping _ _ hping] at hwritten
  have height : (ping.marshal (List.replicate (n + 8) 0) 0).1 = .ok 8 :=
    ping.marshal_of_room (by omega)
  rw [hwritten] at height
  exact Except.ok.inj height

namespace Codec

/-- What a codec has read from some bytes, it marshals into these bytes. -/
theorem ReadFrom.marshal [FieldRow P] {c : Codec P} {frame consumed : Bytes} {p : P}
    (h : c.ReadFrom frame p consumed) (hc : c.scratch.Uniform)
    (hroom : consumed.length ≤ c.scratchSize) : (c.marshal p).1 = .ok consumed := by
  obtain ⟨_, fresh, plain, n, _, _, _, hread, rfl⟩ := h
  have hn := FieldRow.length_slice_of_unmarshal hread
  have hbuffer : 0 + (plain.slice 0 n).length ≤ c.scratch.acquire.1.length := by
    rw [hc.acquire.1, Nat.zero_add]
    exact hroom
  have hlength := Bytes.length_overwrite hbuffer
  have hstand := (Bytes.standAt_overwrite hbuffer).slice
  rw [hn] at hbuffer hstand
  unfold Codec.marshal
  dsimp only
  rw [FieldRow.marshal_of_unmarshal hread hbuffer]
  dsimp only
  rw [if_neg (by omega)]
  exact congrArg Except.ok hstand

/-- A frame of a codec stands for marshaled bytes of a packet: it is made of the place of the packet's
    kind and of the bytes, compressed and encrypted. -/
def FrameOf (c : Codec P) (p : P) (marshaled frame : Bytes) : Prop :=
  ∃ index compressed source, c.registry.indexOf? (Packet.kind p) = some index ∧
    c.compress marshaled = .ok compressed ∧
    frame = Frame.assemble index (c.cipher.encrypt source compressed).1

/-- A probe that a codec has read from some bytes is encoded as a frame for these bytes. -/
theorem ReadFrom.encode_probe [LawfulPacket P] [LawfulProbe P] [FieldRow P] {c : Codec P}
    {frame consumed : Bytes} {p : P} {ping : Ping} (h : c.ReadFrom frame p consumed)
    (hping : Packet.ping? p = some ping) (hc : c.scratch.Uniform) (hsize : 8 ≤ c.scratchSize)
    {echo : Bytes} (hecho : (c.encode p).1 = .ok echo) : c.FrameOf p consumed echo := by
  have hroom : consumed.length ≤ c.scratchSize := by
    obtain ⟨_, fresh, plain, n, _, _, _, hread, rfl⟩ := h
    rw [FieldRow.length_slice_of_unmarshal hread, FieldRow.length_of_probe hread hping]
    exact hsize
  obtain ⟨index, marshaled, compressed, source, hindex, hmarshal, hcompress, -, rfl⟩ :=
    encode_eq_ok hc hecho
  obtain rfl := Except.ok.inj ((h.marshal hc hroom).symm.trans hmarshal)
  exact ⟨index, compressed, source, hindex, hcompress, rfl⟩

end Codec

namespace Server

variable {C : Type}

/-- A probe that comes to an active connection with an open transport is the one thing that is
    submitted in return, in the encoding of the codec. -/
theorem exists_echo [LawfulPacket P] [LawfulProbe P] {s : Server C P} {seat : Seat} {c : Connection C}
    (hc : s.roster.get? seat = some c) (hactive : c.active = true) (hopen : c.transport.isOpen = true)
    (huniform : s.hub.codec.scratch.Uniform) (hkey : s.hub.codec.cipher.HasKey)
    (hbrief : s.hub.codec.compressors.Brief) (hsize : 8 ≤ s.hub.codec.scratchSize) {frame : Bytes}
    {p : P} {ping : Ping} (hread : s.hub.codec.tryDecode frame = .ok (some p)) (hping : Packet.ping? p = some ping) :
    ∃ echo c', (s.hub.codec.encode p).1 = .ok echo ∧
      (s.onFrame seat frame).roster.get? seat = some c' ∧
      c'.transport.queue = c.transport.queue ++ [echo] := by
  have hechoes (packet : P) (ping : Ping) (hread : s.hub.codec.tryDecode frame = .ok (some packet))
      (hping : Packet.ping? packet = some ping) : ∃ echo, (s.hub.codec.encode packet).1 = .ok echo :=
    Codec.exists_encode_probe huniform hkey hbrief hsize hread hping
  obtain ⟨reply, hub', htake, hencoded, -⟩ := c.take_of_open hactive hopen hechoes
  have hpacket : s.hub.packetOf frame = some p := by rw [Hub.packetOf_eq, hread]
  have hprobes : probes [p] = [p] := by simp [probes, hping]
  rw [hpacket, Option.toList_some, hprobes] at hencoded
  have hresults : reply.map Except.ok = [(s.hub.codec.encode p).1] :=
    (congrArg Prod.fst hencoded).symm
  obtain ⟨echo, hreply, hecho⟩ := List.map_eq_singleton_iff.mp hresults
  refine ⟨echo, c.traded frame.length (s.hub.packetOf frame).toList.length reply, hecho.symm, ?_, ?_⟩
  · rw [(onFrame_eq_take hc hactive frame).1, htake]
    exact get?_set hc _
  · rw [hreply]
    rfl

/-- What is read is written back. Values that were read from some bytes of a region are written as
    these bytes into any buffer that has room for them; so no other bytes are read as the same values
    of the same types. A packet that is a row of fields is written as the bytes that it consumed. And
    when a server gets a probe on an active connection, what it submits in return stands for the bytes
    that the probe was read from. -/
theorem reencoded_as_consumed [LawfulPacket P] [LawfulProbe P] [FieldRow P] :
    (∀ (buffer : Bytes) (offset stop : Nat) (types : List Wire.FieldType) (values : List Wire.Value)
      (r : Wire.Reader), (Wire.Reader.ofRange buffer offset stop).getAll types = (.ok values, r) →
      (∀ (buffer' : Bytes) (offset' : Nat), offset' + r.consumed ≤ buffer'.length →
        let (result, w) := (Wire.Writer.atOffset buffer' offset').putAll values
        result = .ok () ∧ w.written = r.consumed ∧
          w.buffer = buffer'.overwrite offset' (buffer.slice offset r.consumed)) ∧
      ∀ (other : Bytes) (offset' stop' : Nat) (r' : Wire.Reader),
        (Wire.Reader.ofRange other offset' stop').getAll types = (.ok values, r') →
          other.slice offset' r'.consumed = buffer.slice offset r.consumed) ∧
    (∀ (p q : P) (buffer : Bytes) (offset stop n : Nat),
      Packet.unmarshal p buffer offset stop = (.ok n, q) →
      ∀ (buffer' : Bytes) (offset' : Nat), offset' + n ≤ buffer'.length →
        Packet.marshal q buffer' offset' =
          (.ok n, buffer'.overwrite offset' (buffer.slice offset n))) ∧
    ∀ (s : Server C P) (seat : Seat) (c : Connection C), s.roster.get? seat = some c →
      c.active = true → c.transport.isOpen = true → s.hub.codec.scratch.Uniform →
      s.hub.codec.cipher.HasKey → s.hub.codec.compressors.Brief → 8 ≤ s.hub.codec.scratchSize →
      ∀ (frame : Bytes) (p : P) (ping : Ping), s.hub.codec.tryDecode frame = .ok (some p) →
        Packet.ping? p = some ping →
        ∃ consumed echo c', s.hub.codec.ReadFrom frame p consumed ∧
          s.hub.codec.FrameOf p consumed echo ∧
          (s.onFrame seat frame).roster.get? seat = some c' ∧
          c'.transport.queue = c.transport.queue ++ [echo] := by
  refine ⟨fun buffer offset stop types values r hread => ⟨fun buffer' offset' hroom => ?_, ?_⟩, ?_, ?_⟩
  · obtain ⟨hconsumed, hslice⟩ := Wire.Reader.slice_of_getAll hread
    rw [Wire.Reader.putAll_of_getAll (w := .atOffset buffer' offset') hread hroom]
    refine ⟨rfl, ?_, rfl⟩
    rw [Wire.Writer.written_extend, hslice, hconsumed]
  · intro other offset' stop' r' hread'
    rw [(Wire.Reader.slice_of_getAll hread).2, (Wire.Reader.slice_of_getAll hread').2]
  · intro p q buffer offset stop n hread buffer' offset' hroom
    exact FieldRow.marshal_of_unmarshal hread hroom
  · intro s seat c hc hactive hopen huniform hkey hbrief hsize frame p ping hread hping
    obtain ⟨consumed, hconsumed⟩ := Codec.exists_readFrom hread
    obtain ⟨echo, c', hecho, hafter, hqueue⟩ :=
      exists_echo hc hactive hopen huniform hkey hbrief hsize hread hping
    exact ⟨consumed, echo, c', hconsumed, hconsumed.encode_probe hping huniform hsize hecho, hafter,
      hqueue⟩

/-- A number and a boolean, a packet of the two, and a probe that has a byte too many behind it. -/
theorem reencoded_row_and_probe :
    let buffer : Bytes := [9, 0, 5, 1, 7]
    let fields : List Wire.Value := [.u16 5, .bool true]
    let fresh : FieldPacket := .zero ⟨"Switch"⟩ [.u16, .bool]
    let s : Server Unit FieldPacket :=
      { hub := { codec := Codec.withScratchSize (.ofRegistry ⟨[.zero Ping.kind [.u64], fresh]⟩) 16 }
        roster := ⟨[{ context := () }]⟩, config := {}, makeContext := fun _ => () }
    (Wire.Reader.ofRange buffer 1 5).getAll [.u16, .bool] = (.ok fields, ⟨buffer, 1, 4, 5⟩) ∧
    (let (result, w) := (Wire.Writer.atOffset [8, 8, 8, 8] 1).putAll fields
     result = .ok () ∧ w.written = 3 ∧ w.buffer = [8, 0, 5, 1]) ∧
    Packet.unmarshal fresh buffer 1 5 = (.ok 3, ⟨⟨"Switch"⟩, fields⟩) ∧
    Packet.marshal (⟨⟨"Switch"⟩, fields⟩ : FieldPacket) [8, 8, 8, 8] 1 = (.ok 3, [8, 0, 5, 1]) ∧
    ∃ c', (s.onFrame 0 [0, 9, 0, 0, 0, 0, 0, 0, 0, 0, 5, 77]).roster.get? 0 = some c' ∧
      c'.transport.queue = [[0, 8, 0, 0, 0, 0, 0, 0, 0, 0, 5]] := by
  intro buffer fields fresh s
  obtain ⟨hrows, hpackets, hechoes⟩ := reencoded_as_consumed (P := FieldPacket) (C := Unit)
  have hread : (Wire.Reader.ofRange buffer 1 5).getAll [.u16, .bool] =
    (.ok fields, ⟨buffer, 1, 4, 5⟩) := by rfl
  have hpacket : Packet.unmarshal fresh buffer 1 5 = (.ok 3, ⟨⟨"Switch"⟩, fields⟩) := by rfl
  have hprobe : s.hub.codec.tryDecode [0, 9, 0, 0, 0, 0, 0, 0, 0, 0, 5, 77] =
      .ok (some ⟨Ping.kind, [.u64 5]⟩) := by
    have hpayload : s.hub.codec.readPayload 0 [0, 0, 0, 0, 0, 0, 0, 5, 77] =
      .ok ⟨Ping.kind, [.u64 5]⟩ := by rfl
    rw [Codec.tryDecode_complete _ (by rfl), hpayload]
    rfl
  have huniform : s.hub.codec.scratch.Uniform := BufferPool.uniform_ofSize _ _
  obtain ⟨consumed, echo, c', hfrom, hframe, hafter, hqueue⟩ := hechoes s 0 { context := () } rfl rfl
    rfl huniform trivial Compressors.brief_standard (by decide) _ _ ⟨5⟩ hprobe (by rfl)
  obtain rfl : consumed = [0, 0, 0, 0, 0, 0, 0, 5] := by
    obtain ⟨_, _, _, _, hindex, hfresh, hplain, hunmarshal, rfl⟩ := hfrom
    cases hindex
    cases hfresh
    cases hplain
    cases hunmarshal
    rfl
  obtain rfl : echo = [0, 8, 0, 0, 0, 0, 0, 0, 0, 0, 5] := by
    obtain ⟨_, _, source, hplace, hcompress, rfl⟩ := hframe
    cases hplace
    cases hcompress
    have hclear : (s.hub.codec.cipher.encrypt source [0, 0, 0, 0, 0, 0, 0, 5]).1 =
      [0, 0, 0, 0, 0, 0, 0, 5] := rfl
    rw [hclear]
    rfl
  exact ⟨hread, (hrows _ _ _ _ _ _ hread).1 [8, 8, 8, 8] 1 (by decide), hpacket,
    hpackets _ _ _ _ _ _ hpacket [8, 8, 8, 8] 1 (by decide), c', hafter, hqueue⟩

end Server
end ShardMesh
