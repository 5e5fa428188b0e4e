import ShardMesh.Text.Utf8

/-!
# What can go wrong

Every operation of the library that can be refused says why with a `ProtocolError`. An error is a
cause with its data; `ProtocolError.message` is the only place where causes get words.

Two causes, `sliceOutOfRange` and `unusableThreadName`, are defects of the caller and not answers
to bad input: an operation that meets one is abandoned. `ProtocolError.isDefect` tells them apart.
-/

namespace ShardMesh

/-- The name of a connection, given once by the server that accepts it. -/
abbrev ConnectionId := UInt64

/-- The name of a shard. -/
abbrev ShardId := Int32

/-- Why a packet or frame counts as malformed. -/
inductive Malformation where
  /-- A boolean byte was neither 0 nor 1. -/
  | boolean (byte : UInt8)
  /-- A text field was not UTF-8. -/
  | text (diagnosis : Utf8Error)
  /-- A packet reported more bytes than the scratch buffer holds. -/
  | scratchOverflow
  /-- A frame ended before its header or its payload did. -/
  | truncatedFrame
  /-- A packet gave a reason of its own. -/
  | other (reason : String)
  deriving DecidableEq, Repr, Inhabited

/-- Why a handoff token was refused. -/
inductive TokenRejection where
  /-- There was no token at all. -/
  | empty
  /-- The token does not have the form of one. -/
  | format
  /-- The signature does not belong to the payload. -/
  | signature
  /-- The token was good once. -/
  | expired
  /-- A field of the request holds the character that separates fields. -/
  | reservedDelimiter
  /-- A reason of the caller's own. -/
  | other (reason : String)
  deriving DecidableEq, Repr, Inhabited

/-- Why an operation of the library was refused. -/
inductive ProtocolError where
  | io (reason : String)
  | transport (reason : String)
  | connectionClosed
  | invalidHeader
  | unknownPacketType (index : UInt8)
  | unregisteredPacket (kind : String)
  | duplicatePacket (kind : String)
  | registryFull (capacity : Nat)
  | bufferUnderflow (offset needed available : Nat)
  | bufferOverflow (offset needed capacity : Nat)
  | malformed (cause : Malformation)
  | oversizedPacket (size : Nat)
  | decryptionFailure
  | encryptionFailure
  | compressionFailure
  | decompressionFailure
  | notFound (id : ConnectionId)
  | unknownShard (id : ShardId)
  | concurrentModification (id : ConnectionId)
  | duplicateListener (name : String)
  | notConnected (peer : String)
  | timeout
  | config (reason : String)
  | tokenRejected (cause : TokenRejection)
  | security (reason : String)
  | tls (reason : String)
  | custom (reason : String)
  /-- A defect: bytes `start` to `stop` were asked of a buffer of `length` bytes. -/
  | sliceOutOfRange (start stop length : Nat)
  /-- A defect: no thread can have this name. -/
  | unusableThreadName (name : String)
  deriving DecidableEq, Repr, Inhabited

/-- The cause in words; a byte is written with two hexadecimal digits. -/
def Malformation.message : Malformation → String
  | .boolean byte => "invalid boolean byte 0x" ++ Bytes.toHex [byte]
  | .text diagnosis => "invalid UTF-8 string: " ++ diagnosis.message
  | .scratchOverflow => "Packet does not fit in the scratch buffer"
  | .truncatedFrame => "Frame shorter than its header"
  | .other reason => reason

/-- The cause in words. -/
def TokenRejection.message : TokenRejection → String
  | .empty => "empty token"
  | .format => "malformed token"
  | .signature => "signature mismatch"
  | .expired => "token expired"
  | .reservedDelimiter => "token field contains a reserved delimiter"
  | .other reason => reason

namespace ProtocolError

/-- The cause in words. -/
def message : ProtocolError → String
  | .io reason => "I/O error: " ++ reason
  | .transport reason => "Transport error: " ++ reason
  | .connectionClosed => "Connection closed"
  | .invalidHeader => "Invalid frame header"
  | .unknownPacketType index => "Unknown packet type index: " ++ toString index.toNat
  | .unregisteredPacket kind => "Packet type not registered: " ++ kind
  | .duplicatePacket kind => "Packet type registered twice: " ++ kind
  | .registryFull capacity => s!"Packet registry is full ({capacity} types maximum)"
  | .bufferUnderflow offset needed available =>
    s!"Buffer underflow: need {needed} bytes at offset {offset}, have {available}"
  | .bufferOverflow offset needed capacity =>
    s!"Buffer overflow: need {needed} bytes at offset {offset}, capacity {capacity}"
  | .malformed cause => "Malformed packet: " ++ cause.message
  | .oversizedPacket size => s!"Packet too large: {size} bytes"
  | .decryptionFailure => "Decryption failed"
  | .encryptionFailure => "Encryption failed"
  | .compressionFailure => "Compression failed"
  | .decompressionFailure => "Decompression failed"
  | .notFound id => "Connection not found: " ++ toString id.toNat
  | .unknownShard id => "Unknown shard: " ++ toString id.toInt
  | .concurrentModification id =>
    "Connection " ++ toString id.toNat ++ " changed shard concurrently"
  | .duplicateListener name => "Listener already registered: " ++ name
  | .notConnected peer => "Peer not connected: " ++ peer
  | .timeout => "Timeout occurred"
  | .config reason => "Configuration error: " ++ reason
  | .tokenRejected cause => "Handoff token rejected: " ++ cause.message
  | .security reason => "Security error: " ++ reason
  | .tls reason => "TLS error: " ++ reason
  | .custom reason => "Custom error: " ++ reason
  | .sliceOutOfRange start stop length => s!"slice {start}..{stop} of {length} bytes"
  | .unusableThreadName name => "no thread can be named " ++ name

/-- The name of the cause. -/
def name : ProtocolError → String
  | .io _ => "Io"
  | .transport _ => "TransportError"
  | .connectionClosed => "ConnectionClosed"
  | .invalidHeader => "InvalidHeader"
  | .unknownPacketType _ => "UnknownPacketType"
  | .unregisteredPacket _ => "UnregisteredPacket"
  | .duplicatePacket _ => "DuplicatePacket"
  | .registryFull _ => "RegistryFull"
  | .bufferUnderflow .. => "BufferUnderflow"
  | .bufferOverflow .. => "BufferOverflow"
  | .malformed _ => "Malformed"
  | .oversizedPacket _ => "OversizedPacket"
  | .decryptionFailure => "DecryptionFailure"
  | .encryptionFailure => "EncryptionFailure"
  | .compressionFailure => "CompressionFailure"
  | .decompressionFailure => "DecompressionFailure"
  | .notFound _ => "NotFound"
  | .unknownShard _ => "UnknownShard"
  | .concurrentModification _ => "ConcurrentModification"
  | .duplicateListener _ => "DuplicateListener"
  | .notConnected _ => "NotConnected"
  | .timeout => "Timeout"
  | .config _ => "ConfigError"
  | .tokenRejected _ => "TokenRejected"
  | .security _ => "SecurityError"
  | .tls _ => "TlsError"
  | .custom _ => "Custom"
  | .sliceOutOfRange .. => "SliceOutOfRange"
  | .unusableThreadName _ => "UnusableThreadName"

/-- Whether the error condemns one packet only: the connection that carried it goes on. -/
def isProtocolError : ProtocolError → Bool
  | .invalidHeader | .unknownPacketType _ | .bufferUnderflow .. | .malformed _
  | .decryptionFailure | .decompressionFailure => true
  | _ => false

/-- Whether the error is a defect of the caller, which abandons the operation. -/
def isDefect : ProtocolError → Bool
  | .sliceOutOfRange .. | .unusableThreadName _ => true
  | _ => false

end ProtocolError
end ShardMesh
