import ShardMesh.Packet.Basic
import ShardMesh.Text.Quoted

/-!
# The registry of packet kinds

Both ends of a connection register the same kinds in the same order; a kind's place in that order
is the one byte that announces it on the wire. A registry holds one untouched packet of every
kind, from which arriving packets are made.
-/

namespace ShardMesh

/-- The number of kinds that one byte can tell apart. -/
def maxPacketKinds : Nat := 256

/-- The registered kinds in order, each given by a packet in which nothing is set. -/
structure PacketRegistry (P : Type) where
  /-- One fresh packet per kind. -/
  kinds : List P
  deriving Repr, Inhabited

namespace PacketRegistry

variable {P : Type} [Packet P]

/-- The registry without kinds. -/
def empty : PacketRegistry P := ⟨[]⟩

/-- Adds the kind of a fresh packet at the end. A kind that is there already is refused as a
duplicate, also when the registry is full. -/
def register (r : PacketRegistry P) (fresh : P) : Except ProtocolError (PacketRegistry P) :=
  if r.kinds.any (fun k => Packet.kind k = Packet.kind fresh) then
    .error (.duplicatePacket (Packet.kindName fresh))
  else if maxPacketKinds ≤ r.kinds.length then
    .error (.registryFull maxPacketKinds)
  else
    .ok ⟨r.kinds ++ [fresh]⟩

/-- The registry of the given kinds, or the first refusal. -/
def ofList (fresh : List P) : Except ProtocolError (PacketRegistry P) :=
  fresh.foldlM register empty

/-- The place of a kind. -/
def indexOf? (r : PacketRegistry P) (kind : PacketKind) : Option UInt8 :=
  (r.kinds.findIdx? (fun k => Packet.kind k = kind)).map UInt8.ofNat

/-- Whether a kind is registered. -/
def contains (r : PacketRegistry P) (kind : PacketKind) : Bool :=
  (r.indexOf? kind).isSome

/-- A fresh packet of the kind at a place. -/
def instantiate? (r : PacketRegistry P) (index : UInt8) : Option P :=
  r.kinds[index.toNat]?

/-- The name of the kind at a place. -/
def nameOf? (r : PacketRegistry P) (index : UInt8) : Option String :=
  (r.instantiate? index).map Packet.kindName

/-- The names of all kinds in order. -/
def names (r : PacketRegistry P) : List String :=
  r.kinds.map Packet.kindName

/-- The number of kinds. -/
def size (r : PacketRegistry P) : Nat := r.kinds.length

/-- The registry as it appears in diagnostics. -/
def describe (r : PacketRegistry P) : String :=
  "PacketRegistry \x7b kinds: " ++ Text.listing (r.names.map Text.quoted) ++ " \x7d"

end PacketRegistry
end ShardMesh
