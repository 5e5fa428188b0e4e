import ShardMesh.Packet.Registry
import ShardMesh.Frame
import ShardMesh.BufferPool
import ShardMesh.Compression.Stage
import ShardMesh.Crypto.Cipher
import ShardMesh.Metrics
import ShardMesh.Config.Basic

/-!
# The packet codec

A packet becomes a frame in steps: it writes itself into a scratch buffer, what it wrote is
compressed and encrypted, and the result is framed under the packet's place in the registry.
Decoding goes the same way back. A frame that cannot be decoded costs that frame only.
-/

namespace ShardMesh

/-- Turns packets into frames and frames into packets. -/
structure Codec (P : Type) where
  registry : PacketRegistry P
  compression : Compression
  cipher : Cipher
  /-- Buffers that packets write themselves into. -/
  scratch : BufferPool
  /-- Where nonces come from. -/
  nonces : NonceSource
  /-- What compresses payloads. -/
  compressors : Compressors
  deriving Inhabited

namespace Codec

variable {P : Type} [Packet P]

/-- How many scratch buffers are kept. -/
def scratchCount : Nat := 8

/-- The codec of a registry that neither compresses nor encrypts. -/
def ofRegistry [compressors : Compressors] (registry : PacketRegistry P) : Codec P :=
  ⟨registry, .none, .plain, BufferPool.ofSize scratchCount BufferPool.defaultBufferSize, ⟨0⟩,
    compressors⟩

/-- The codec with scratch buffers of another size, which bounds the size of packets. -/
def withScratchSize (c : Codec P) (size : Nat) : Codec P :=
  { c with scratch := BufferPool.ofSize scratchCount size }

/-- The codec of a registry that a configuration describes. It does not encrypt. -/
def ofConfig [Compressors] (registry : PacketRegistry P) (config : CodecConfig) : Codec P :=
  { (ofRegistry registry).withScratchSize config.scratchBufferSize.toNat with
    compression := config.compression }

/-- The size of the scratch buffers. -/
def scratchSize (c : Codec P) : Nat := c.scratch.bufferSize

/-- The compressed form of marshaled bytes. -/
def compress (c : Codec P) (marshaled : Bytes) : Except ProtocolError Bytes :=
  c.compression.compressWith c.compressors marshaled

/-- The marshaled bytes of a payload: decrypted, then decompressed. -/
def ofPayload (c : Codec P) (payload : Bytes) : Except ProtocolError Bytes :=
  match c.cipher.decrypt payload with
  | .ok compressed => c.compression.decompress compressed
  | .error e => .error e

/-- What a packet writes into a scratch buffer, as far as it says it did. -/
def marshal (c : Codec P) (packet : P) : Except ProtocolError Bytes × Codec P :=
  let (buffer, scratch) := c.scratch.acquire
  let (result, buffer) := Packet.marshal packet buffer 0
  let c := { c with scratch := scratch.release buffer }
  match result with
  | .error e => (.error e, c)
  | .ok written =>
    if buffer.length < written then (.error (.malformed .scratchOverflow), c)
    else (.ok (buffer.take written), c)

/-- The frame of a packet. -/
def encode (c : Codec P) (packet : P) : Except ProtocolError Bytes × Codec P :=
  match c.registry.indexOf? (Packet.kind packet) with
  | none => (.error (.unregisteredPacket (Packet.kindName packet)), c)
  | some index =>
    match c.marshal packet with
    | (.error e, c) => (.error e, c)
    | (.ok marshaled, c) =>
      match c.compress marshaled with
      | .error e => (.error e, c)
      | .ok compressed =>
        let (payload, nonces) := c.cipher.encrypt c.nonces compressed
        let c := { c with nonces }
        if Frame.maxPayload < payload.length then (.error (.oversizedPacket payload.length), c)
        else (.ok (Frame.assemble index payload), c)

/-- The packet of a frame; no packet for no bytes. What follows the announced payload is ignored,
and so are payload bytes that the packet does not read. -/
def tryDecode (c : Codec P) (frame : Bytes) : Except ProtocolError (Option P) :=
  match frame with
  | [] => .ok none
  | _ :: _ :: index :: body =>
    let declared := Frame.declaredLength frame
    match c.registry.instantiate? index with
    | none => .error (.unknownPacketType index)
    | some fresh =>
      if body.length < declared then
        .error (.bufferUnderflow Frame.headerLength declared body.length)
      else
        match c.ofPayload (body.take declared) with
        | .error e => .error e
        | .ok plain =>
          match Packet.unmarshal fresh plain 0 plain.length with
          | (.error e, _) => .error e
          | (.ok _, packet) => .ok (some packet)
  | _ => .error (.malformed .truncatedFrame)

/-- The packet of a frame, if there is one; a frame that is refused is counted. -/
def decode (c : Codec P) (m : Metrics) (frame : Bytes) : Option P × Metrics :=
  match c.tryDecode frame with
  | .ok packet => (packet, m)
  | .error _ => (none, m.protocolError)

/-- The codec as it appears in diagnostics. -/
def describe (c : Codec P) : String :=
  "PacketCodec \x7b registry: " ++ c.registry.describe ++ ", compression: " ++
    c.compression.describe ++ ", crypt: " ++ c.cipher.describe ++ ", scratch_size: " ++
    toString c.scratchSize ++ " \x7d"

end Codec
end ShardMesh
