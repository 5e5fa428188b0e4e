import ShardMesh.Config.Basic

/-!
# Times that a bridge keeps to
-/

namespace ShardMesh

/-- The times of all links of a bridge, in milliseconds. -/
structure BridgeSettings where
  /-- A link on which nothing arrives for so long is lost. It bounds the dial, too. -/
  readTimeout : Nat := 10000
  /-- How long a failed or lost link rests before it is dialed again. -/
  reconnectDelay : Nat := 5000
  /-- How long the end of a link's session is waited for. -/
  closeTimeout : Nat := 3000
  deriving DecidableEq, Repr, Inhabited

/-- A time in milliseconds as it appears in diagnostics: in seconds as soon as it has one. -/
def durationText (millis : Nat) : String :=
  if millis = 0 then "0ns"
  else if millis < 1000 then toString millis ++ "ms"
  else
    let digits := (toString (1000 + millis % 1000)).toList.drop 1
    let places := (digits.reverse.dropWhile (· = '0')).reverse
    toString (millis / 1000) ++ (if places.isEmpty then "" else "." ++ String.ofList places) ++ "s"

namespace BridgeSettings

/-- The times that a configuration gives. -/
def ofConfig (c : MeshConfig) : BridgeSettings where
  readTimeout := c.server.readTimeout
  reconnectDelay := c.bridge.reconnectDelay
  closeTimeout := c.bridge.closeTimeout

/-- The times as they appear in diagnostics. -/
def describe (s : BridgeSettings) : String :=
  "BridgeSettings \x7b read_timeout: " ++ durationText s.readTimeout ++ ", reconnect_delay: " ++
    durationText s.reconnectDelay ++ ", close_timeout: " ++ durationText s.closeTimeout ++ " \x7d"

end BridgeSettings
end ShardMesh
