import ShardMesh.Keepalive

/-!
# Where and how a client connects
-/

namespace ShardMesh

/-- The peer of a client, and how a client deals with it. -/
structure ClientOptions where
  host : String
  port : UInt16
  /-- In milliseconds. It bounds the dial, too. -/
  readTimeout : Nat
  /-- The time between probes in nanoseconds; without it there are none. -/
  keepalive : Option Nat
  /-- The name of the peer in messages. -/
  label : String
  deriving DecidableEq, Repr, Inhabited

namespace ClientOptions

/-- Nanoseconds in a millisecond. -/
def nanosPerMilli : Nat := 1000000

/-- The read timeout where none is asked for. -/
def defaultReadTimeout : Nat := 10000

/-- The peer as it is dialed. -/
def address (host : String) (port : UInt16) : String := host ++ ":" ++ toString port.toNat

/-- The usual options for an address. -/
def ofAddress (host : String) (port : UInt16) : ClientOptions :=
  { host, port
    readTimeout := defaultReadTimeout
    keepalive := some (Keepalive.interval (defaultReadTimeout * nanosPerMilli))
    label := address host port }

/-- The options with another read timeout. Where there are probes, their interval follows. -/
def withReadTimeout (o : ClientOptions) (millis : Nat) : ClientOptions :=
  { o with
    readTimeout := millis
    keepalive := o.keepalive.map fun _ => Keepalive.interval (millis * nanosPerMilli) }

/-- The options with another interval between probes. No time at all means no probes. -/
def withKeepalive (o : ClientOptions) (nanos : Option Nat) : ClientOptions :=
  { o with keepalive := nanos.filter (· ≠ 0) }

/-- The options with another name for the peer. -/
def withLabel (o : ClientOptions) (label : String) : ClientOptions := { o with label }

end ClientOptions
end ShardMesh
