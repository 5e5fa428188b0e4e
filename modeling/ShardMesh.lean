import ShardMesh.Alarm
import ShardMesh.Bridge.Basic
import ShardMesh.Bridge.Link
import ShardMesh.Bridge.Observer
import ShardMesh.Bridge.Peering
import ShardMesh.Bridge.Progress
import ShardMesh.Bridge.Settings
import ShardMesh.BufferPool
import ShardMesh.Bytes
import ShardMesh.Client.Basic
import ShardMesh.Client.Caller
import ShardMesh.Client.Line
import ShardMesh.Client.Network
import ShardMesh.Client.Options
import ShardMesh.Codec
import ShardMesh.Compression.Compressors
import ShardMesh.Compression.Lz4
import ShardMesh.Compression.Lz4.Writer
import ShardMesh.Compression.Repetition
import ShardMesh.Compression.Segment
import ShardMesh.Compression.Stage
import ShardMesh.Compression.Standard
import ShardMesh.Compression.XxHash64
import ShardMesh.Compression.Zstd.Bits
import ShardMesh.Compression.Zstd.Block
import ShardMesh.Compression.Zstd.Course
import ShardMesh.Compression.Zstd.Earlier.Frame
import ShardMesh.Compression.Zstd.Earlier.Header
import ShardMesh.Compression.Zstd.Earlier.Literals
import ShardMesh.Compression.Zstd.Earlier.LongLengths
import ShardMesh.Compression.Zstd.Earlier.Sequences
import ShardMesh.Compression.Zstd.Earlier.Tables
import ShardMesh.Compression.Zstd.Frame
import ShardMesh.Compression.Zstd.Fse
import ShardMesh.Compression.Zstd.Huffman
import ShardMesh.Compression.Zstd.Huffman.Design
import ShardMesh.Compression.Zstd.Huffman.Streams
import ShardMesh.Compression.Zstd.Literals
import ShardMesh.Compression.Zstd.Literals.Writer
import ShardMesh.Compression.Zstd.Receiver
import ShardMesh.Compression.Zstd.Sequences
import ShardMesh.Compression.Zstd.Sequences.Writer
import ShardMesh.Compression.Zstd.Stream
import ShardMesh.Compression.Zstd.Window
import ShardMesh.Compression.Zstd.Writer
import ShardMesh.Config.Basic
import ShardMesh.Config.Check
import ShardMesh.Config.Decode
import ShardMesh.Config.Encode
import ShardMesh.Config.Environment
import ShardMesh.Config.File
import ShardMesh.Config.Path
import ShardMesh.Connection
import ShardMesh.Crypto.ChaCha20
import ShardMesh.Crypto.Cipher
import ShardMesh.Crypto.Poly1305
import ShardMesh.Crypto.SealedBox
import ShardMesh.Crypto.Sha256
import ShardMesh.Decimal.Binary64
import ShardMesh.Decimal.Shortest
import ShardMesh.Dict
import ShardMesh.Dispatcher
import ShardMesh.Error
import ShardMesh.Frame
import ShardMesh.Handoff.Signer
import ShardMesh.Handoff.Token
import ShardMesh.Hub
import ShardMesh.Keepalive
import ShardMesh.Listener
import ShardMesh.Metrics
import ShardMesh.Packet.Basic
import ShardMesh.Packet.Registry
import ShardMesh.Proofs.Compression.Lz4
import ShardMesh.Proofs.Compression.Repetition
import ShardMesh.Proofs.Framing
import ShardMesh.Proofs.Numbers
import ShardMesh.Server
import ShardMesh.Session.Basic
import ShardMesh.Session.Exchange
import ShardMesh.Session.Journal
import ShardMesh.Session.Pipe
import ShardMesh.Session.Rehearsal
import ShardMesh.Shard.Directory
import ShardMesh.Shard.Range
import ShardMesh.Shard.Registry
import ShardMesh.Shard.Table
import ShardMesh.Text.Base64
import ShardMesh.Text.Number
import ShardMesh.Text.Printable
import ShardMesh.Text.Quoted
import ShardMesh.Text.Utf8
import ShardMesh.Timeout
import ShardMesh.Tls.Config
import ShardMesh.Tls.Pem
import ShardMesh.Tls.ServerName
import ShardMesh.Toml.Quoted
import ShardMesh.Toml.Reader
import ShardMesh.Toml.Scalar
import ShardMesh.Toml.Value
import ShardMesh.Toml.Writer
import ShardMesh.Transport
import ShardMesh.Wire.Reader
import ShardMesh.Wire.Value
import ShardMesh.Wire.Writer
import ShardMesh.Proofs.Compression.Segment
import ShardMesh.Proofs.Compression.Counting
import ShardMesh.Proofs.Compression.Zstd
import ShardMesh.Proofs.Compression.Standard
import ShardMesh.Proofs.Compression.Narrowing
import ShardMesh.Proofs.Compression.Limit
import ShardMesh.Proofs.Crypto.SealedBox
import ShardMesh.Proofs.Marshal
import ShardMesh.Proofs.PacketRegistry
import ShardMesh.Proofs.RoundTrip
import ShardMesh.Proofs.Dict
import ShardMesh.Proofs.Shard.Registry
import ShardMesh.Proofs.Bridge.Link
import ShardMesh.Proofs.Text.Base64
import ShardMesh.Proofs.Text.Encodings
import ShardMesh.Proofs.Text.Fields
import ShardMesh.Proofs.Handoff.Token
import ShardMesh.Proofs.Connection
import ShardMesh.Proofs.Server.Calls
import ShardMesh.Proofs.Server.Lifecycle
import ShardMesh.Proofs.Probe
import ShardMesh.Proofs.Server.Echo
import ShardMesh.Proofs.Session.Recording
import ShardMesh.Proofs.Session.Conversation
import ShardMesh.Proofs.Session.Reports
import ShardMesh.Proofs.Shard.Range
import ShardMesh.Proofs.Shard.Table
import ShardMesh.Proofs.Dispatcher.Journal
import ShardMesh.Proofs.Dispatcher.Sound
import ShardMesh.Proofs.Dispatcher.Delivery
import ShardMesh.Proofs.Dispatcher.Settling
import ShardMesh.Proofs.Dispatcher.Refusal
import ShardMesh.Proofs.Bridge.Moves
import ShardMesh.Proofs.Bridge.Shutdown
import ShardMesh.Proofs.Bridge.Sessions
import ShardMesh.Proofs.Bridge.History
import ShardMesh.Proofs.Wire.Encoding
import ShardMesh.Proofs.Wire.Reader
import ShardMesh.Proofs.Wire.Writer
import ShardMesh.Proofs.Wire.RoundTrip
import ShardMesh.Proofs.Wire.Canonical
import ShardMesh.Proofs.Server.Reflection
import ShardMesh.Proofs.Scratch
import ShardMesh.Proofs.Shard.Broadcast
import ShardMesh.Proofs.Shard.Moving
import ShardMesh.Proofs.Shard.Race
import ShardMesh.Proofs.Shard.Operation
import ShardMesh.Proofs.Shard.Responsibility
import ShardMesh.Proofs.Shard.Convergence
import ShardMesh.Proofs.Server.Ownership
import ShardMesh.Proofs.Session.Handling
import ShardMesh.Proofs.Session.Steps
import ShardMesh.Proofs.Session.Outflow
import ShardMesh.Proofs.Session.Flushing
import ShardMesh.Proofs.Session.Accepted
import ShardMesh.Proofs.Client.Calls
import ShardMesh.Proofs.Client.Life
import ShardMesh.Proofs.Client.SingleUse
import ShardMesh.Proofs.Shard.Delivery
import ShardMesh.Proofs.Shard.Placement
import ShardMesh.Proofs.Server.Identity
import ShardMesh.Proofs.Toml.Quoted
import ShardMesh.Proofs.Toml.Scalar
import ShardMesh.Proofs.Toml.Line
import ShardMesh.Proofs.Toml.Document
import ShardMesh.Proofs.Config.Decoding
import ShardMesh.Proofs.Config.Saving
import ShardMesh.Proofs.Bridge.Routing
import ShardMesh.Proofs.Handoff.Peers
import ShardMesh.Proofs.Attempts
import ShardMesh.Proofs.Framing.Writing
import ShardMesh.Proofs.Connection.Traffic
import ShardMesh.Proofs.Expansion
import ShardMesh.Proofs.Wire.Region
import ShardMesh.Proofs.Wire.Footprint
import ShardMesh.Proofs.Lending
