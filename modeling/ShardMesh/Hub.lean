import ShardMesh.Codec

/-!
# What connections share

All connections of an endpoint use one codec, and all endpoints of a process count into the same
counters. A hub is the two together; operations that encode, decode or count take a hub and give
one back.
-/

namespace ShardMesh

/-- A codec and the counters of the process. -/
structure Hub (P : Type) where
  codec : Codec P
  metrics : Metrics := {}
  deriving Inhabited

namespace Hub

variable {P : Type} [Packet P]

/-- Counts something. -/
def count (h : Hub P) (f : Metrics → Metrics) : Hub P := { h with metrics := f h.metrics }

/-- The frame of a packet. -/
def encode (h : Hub P) (packet : P) : Except ProtocolError Bytes × Hub P :=
  let (result, codec) := h.codec.encode packet
  (result, { h with codec })

/-- The packet of a frame, if there is one; a frame that is refused is counted. -/
def decode (h : Hub P) (frame : Bytes) : Option P × Hub P :=
  let (packet, metrics) := h.codec.decode h.metrics frame
  (packet, { h with metrics })

end Hub
end ShardMesh
