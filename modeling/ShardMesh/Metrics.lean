/-!
# Counters

What a process counts while it runs. Counters have 64 bits and wrap around.
-/

namespace ShardMesh

/-- The counters of a process. -/
structure Metrics where
  connectionsTotal : UInt64 := 0
  connectionsActive : UInt64 := 0
  packetsSent : UInt64 := 0
  packetsReceived : UInt64 := 0
  bytesSent : UInt64 := 0
  bytesReceived : UInt64 := 0
  protocolErrors : UInt64 := 0
  sendFailures : UInt64 := 0
  shardMoves : UInt64 := 0
  listenerFailures : UInt64 := 0
  listenerPanics : UInt64 := 0
  bridgeConnects : UInt64 := 0
  bridgeReconnects : UInt64 := 0
  bridgeDroppedSends : UInt64 := 0
  deriving DecidableEq, Repr, Inhabited

namespace Metrics

def connectionEstablished (m : Metrics) : Metrics :=
  { m with
    connectionsTotal := m.connectionsTotal + 1
    connectionsActive := m.connectionsActive + 1 }

/-- A connection that was never counted as active is not counted as gone. -/
def connectionClosed (m : Metrics) : Metrics :=
  if m.connectionsActive = 0 then m
  else { m with connectionsActive := m.connectionsActive - 1 }

def packetSent (m : Metrics) (bytes : UInt64) : Metrics :=
  { m with packetsSent := m.packetsSent + 1, bytesSent := m.bytesSent + bytes }

def packetReceived (m : Metrics) (bytes : UInt64) : Metrics :=
  { m with packetsReceived := m.packetsReceived + 1, bytesReceived := m.bytesReceived + bytes }

def protocolError (m : Metrics) : Metrics := { m with protocolErrors := m.protocolErrors + 1 }

def sendFailure (m : Metrics) : Metrics := { m with sendFailures := m.sendFailures + 1 }

def shardMove (m : Metrics) : Metrics := { m with shardMoves := m.shardMoves + 1 }

def listenerFailure (m : Metrics) : Metrics :=
  { m with listenerFailures := m.listenerFailures + 1 }

def listenerPanic (m : Metrics) : Metrics := { m with listenerPanics := m.listenerPanics + 1 }

def bridgeConnected (m : Metrics) : Metrics := { m with bridgeConnects := m.bridgeConnects + 1 }

def bridgeReconnect (m : Metrics) : Metrics :=
  { m with bridgeReconnects := m.bridgeReconnects + 1 }

def bridgeDroppedSend (m : Metrics) : Metrics :=
  { m with bridgeDroppedSends := m.bridgeDroppedSends + 1 }

/-- All counters with their names. -/
def toList (m : Metrics) : List (String × UInt64) := [
  ("connections_total", m.connectionsTotal), ("connections_active", m.connectionsActive),
  ("packets_sent", m.packetsSent), ("packets_received", m.packetsReceived),
  ("bytes_sent", m.bytesSent), ("bytes_received", m.bytesReceived),
  ("protocol_errors", m.protocolErrors), ("send_failures", m.sendFailures),
  ("shard_moves", m.shardMoves), ("listener_failures", m.listenerFailures),
  ("listener_panics", m.listenerPanics), ("bridge_connects", m.bridgeConnects),
  ("bridge_reconnects", m.bridgeReconnects), ("bridge_dropped_sends", m.bridgeDroppedSends)]

/-- The counting that a name asks for, with a number of bytes where it needs one. -/
def record? (m : Metrics) (name : String) (bytes : UInt64) : Option Metrics :=
  match name with
  | "connection_established" => some m.connectionEstablished
  | "connection_closed" => some m.connectionClosed
  | "packet_sent" => some (m.packetSent bytes)
  | "packet_received" => some (m.packetReceived bytes)
  | "protocol_error" => some m.protocolError
  | "send_failure" => some m.sendFailure
  | "shard_move" => some m.shardMove
  | "listener_failure" => some m.listenerFailure
  | "listener_panic" => some m.listenerPanic
  | "bridge_connected" => some m.bridgeConnected
  | "bridge_reconnect" => some m.bridgeReconnect
  | "bridge_dropped_send" => some m.bridgeDroppedSend
  | _ => none

end Metrics
end ShardMesh
