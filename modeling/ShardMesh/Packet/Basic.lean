import ShardMesh.Wire.Writer
import ShardMesh.Wire.Reader

/-!
# Packets

A packet is a message of some kind. The codec never sees a packet's fields: it asks the packet to
write itself into a buffer, and on arrival asks a fresh packet of the announced kind to read
itself. `Packet P` says that `P` is a family of such messages; every family has the keep-alive
probe `Ping` among its members.

Most packets are a row of typed fields. `FieldPacket` is that case, once and for all.
-/

namespace ShardMesh

/-! ## Kinds -/

/-- A kind of packet, told apart by its path: a name with the modules it lives in before it. -/
structure PacketKind where
  /-- Module names and the kind's own name, joined by double colons. -/
  path : String
  deriving DecidableEq, Repr, Inhabited

namespace PacketKind

/-- The length of what stands before the kind's own name. Type arguments, which start at the first
angle bracket, belong to the name. -/
def qualifierLength : List Char → Nat
  | [] => 0
  | c :: rest =>
    if c = '<' then 0
    else
      match qualifierLength rest with
      | 0 => if c = ':' ∧ rest.head? = some ':' then 2 else 0
      | n + 1 => n + 2

/-- The kind's own name, with its type arguments as they are. -/
def name (k : PacketKind) : String :=
  String.ofList (k.path.toList.drop (qualifierLength k.path.toList))

end PacketKind

/-! ## The keep-alive probe -/

/-- A keep-alive probe. Servers send it back unchanged; clients measure the round trip. -/
structure Ping where
  /-- The sender's clock, in microseconds since 1970. -/
  sentAtMicros : UInt64
  deriving DecidableEq, Repr, Inhabited

namespace Ping

/-- The kind of all probes. -/
def kind : PacketKind := ⟨"Ping"⟩

/-- Writes the time stamp. -/
def marshal (p : Ping) (buffer : Bytes) (offset : Nat) : Except ProtocolError Nat × Bytes :=
  match (Wire.Writer.atOffset buffer offset).put (.u64 p.sentAtMicros) with
  | (.ok (), w) => (.ok w.written, w.buffer)
  | (.error e, w) => (.error e, w.buffer)

/-- Reads the time stamp; on refusal the old one stays. -/
def unmarshal (p : Ping) (buffer : Bytes) (offset stop : Nat) : Except ProtocolError Nat × Ping :=
  match (Wire.Reader.ofRange buffer offset stop).get .u64 with
  | (.ok (.u64 sentAt), r) => (.ok r.consumed, ⟨sentAt⟩)
  | (.ok _, r) => (.ok r.consumed, p)
  | (.error e, _) => (.error e, p)

end Ping

/-! ## Families of packets -/

/-- A family of packets: what the codec and the endpoints ask of a message. -/
class Packet (P : Type) where
  /-- The kind of a packet. -/
  kind : P → PacketKind
  /-- Writes the packet into a buffer from an offset on: how many bytes it took, and the buffer
  afterwards, which a refusal may leave partly written. -/
  marshal : P → Bytes → Nat → Except ProtocolError Nat × Bytes
  /-- Reads fields from a region of a buffer, given by its offset and end: how many bytes that
  consumed, and the packet afterwards, which a refusal may leave partly changed. -/
  unmarshal : P → Bytes → Nat → Nat → Except ProtocolError Nat × P
  /-- The probe as a member of the family. -/
  ofPing : Ping → P
  /-- The probe that a packet is, if it is one. -/
  ping? : P → Option Ping

/-- The name under which a packet appears in errors. -/
def Packet.kindName {P : Type} [Packet P] (p : P) : String :=
  (Packet.kind p).name

instance : Packet Ping where
  kind _ := Ping.kind
  marshal := Ping.marshal
  unmarshal := Ping.unmarshal
  ofPing := id
  ping? := some

/-! ## Packets made of fields -/

/-- A packet that is a row of typed fields, written and read in order. -/
structure FieldPacket where
  /-- The packet's kind. -/
  kind : PacketKind
  /-- The fields in the order of the wire. -/
  fields : List Wire.Value
  deriving DecidableEq, Repr, Inhabited

namespace FieldPacket

/-- The packet of a kind with the given field types in which nothing is set. -/
def zero (kind : PacketKind) (types : List Wire.FieldType) : FieldPacket :=
  ⟨kind, types.map Wire.FieldType.zero⟩

/-- Writes the fields in order. -/
def marshal (p : FieldPacket) (buffer : Bytes) (offset : Nat) :
    Except ProtocolError Nat × Bytes :=
  match (Wire.Writer.atOffset buffer offset).putAll p.fields with
  | (.ok (), w) => (.ok w.written, w.buffer)
  | (.error e, w) => (.error e, w.buffer)

/-- Reads a row of fields: each field is set as it is read, so a refusal leaves the later ones as
they were. -/
def readFields (r : Wire.Reader) :
    List Wire.Value → Except ProtocolError Wire.Reader × List Wire.Value
  | [] => (.ok r, [])
  | v :: vs =>
    match r.get v.type with
    | (.ok new, r) =>
      let (result, vs) := readFields r vs
      (result, new :: vs)
    | (.error e, _) => (.error e, v :: vs)

/-- Reads the fields in order. -/
def unmarshal (p : FieldPacket) (buffer : Bytes) (offset stop : Nat) :
    Except ProtocolError Nat × FieldPacket :=
  let (result, fields) := readFields (Wire.Reader.ofRange buffer offset stop) p.fields
  (result.map (·.consumed), { p with fields })

end FieldPacket

/-- As a row of fields, the probe has its time stamp for its one field. -/
instance : Packet FieldPacket where
  kind := FieldPacket.kind
  marshal := FieldPacket.marshal
  unmarshal := FieldPacket.unmarshal
  ofPing p := ⟨Ping.kind, [.u64 p.sentAtMicros]⟩
  ping?
    | ⟨kind, [.u64 sentAt]⟩ => if kind = Ping.kind then some ⟨sentAt⟩ else none
    | _ => none

end ShardMesh
