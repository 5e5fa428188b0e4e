import ShardMesh.Error
import ShardMesh.Text.Quoted

/-!
# The way out of a connection

A connection never writes to the network itself. It submits whole frames to its transport, where
they wait in order for the session that drives the connection. Closing a transport stops further
frames and asks the session to end; frames that wait already are still written.
-/

namespace ShardMesh

/-- Frames that wait to be written, and whether more are accepted. -/
structure Transport where
  /-- The waiting frames, oldest first. -/
  queue : List Bytes := []
  /-- No further frame is accepted, and the session is to end. -/
  closed : Bool := false
  /-- There is no session that could write. -/
  abandoned : Bool := false
  deriving DecidableEq, Repr, Inhabited

namespace Transport

/-- Lets a frame wait for being written. -/
def submit (t : Transport) (frame : Bytes) : Except ProtocolError Transport :=
  if t.closed then .error .connectionClosed
  else if t.abandoned then .error (.transport "Transport write queue closed")
  else .ok { t with queue := t.queue ++ [frame] }

/-- Accepts no further frames. -/
def close (t : Transport) : Transport := { t with closed := true }

/-- Gives up the waiting frames with the session that would have written them. -/
def abandon (t : Transport) : Transport := { t with abandoned := true, queue := [] }

/-- Whether frames are accepted. -/
def isOpen (t : Transport) : Bool := !t.closed && !t.abandoned

/-- Whether the session is asked to end, if there is one. -/
def closeSignal? (t : Transport) : Option Bool := if t.abandoned then none else some t.closed

/-- Takes all waiting frames out. -/
def drain (t : Transport) : List Bytes × Transport := (t.queue, { t with queue := [] })

/-- The transport as it appears in diagnostics. -/
def describe (t : Transport) : String :=
  "ChannelTransport \x7b open: " ++ Text.truth t.isOpen ++ " \x7d"

end Transport
end ShardMesh
