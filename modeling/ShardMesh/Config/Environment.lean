import ShardMesh.Config.Basic
import ShardMesh.Text.Number

/-!
# Settings from the environment

Some settings can be overridden by variables of the environment. A number that does not fit leaves
the setting as it is.
-/

namespace ShardMesh

/-- A number below a bound. -/
def readBelow (bound : Nat) (text : String) : Option Nat := Text.number? bound text.toList

/-- The configuration with the settings that the environment overrides. -/
def MeshConfig.override (setting? : String → Option String) (c : MeshConfig) : MeshConfig :=
  let text (name : String) := setting? ("MESH_PROTOCOL_" ++ name)
  let number (name : String) (bound : Nat) := (text name).bind (readBelow bound)
  let millis (name : String) := number name UInt64.size
  { c with
    server.serverId := (text "SERVER_ID").getD c.server.serverId
    server.host := (text "HOST").getD c.server.host
    server.port := ((number "PORT" UInt16.size).map UInt16.ofNat).getD c.server.port
    server.publicHost := (text "PUBLIC_HOST").orElse fun _ => c.server.publicHost
    server.readTimeout := (millis "READ_TIMEOUT_MS").getD c.server.readTimeout
    bridge.reconnectDelay := (millis "RECONNECT_DELAY_MS").getD c.bridge.reconnectDelay
    security.handoffSecret := (text "HANDOFF_SECRET").getD c.security.handoffSecret }

end ShardMesh
