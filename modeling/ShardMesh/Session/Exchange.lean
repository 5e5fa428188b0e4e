import ShardMesh.Session.Basic

/-!
# A session and its peer

The peer sits at the far end of a session's stream: it writes frames, reads frames, ends its own
direction or goes away altogether. An exchange is the two together, for as long as the peer is
there.
-/

namespace ShardMesh

/-- A session with the peer at the far end of its stream. -/
structure Exchange where
  session : Session
  /-- Whether the peer is still there. -/
  attended : Bool := true
  /-- What the peer has read of a frame that is not complete. -/
  rest : Bytes := []
  deriving Repr, Inhabited

/-- How a peer's writing ends. -/
inductive Delivery where
  | written
  /-- There is no room, because the session does not read any longer. -/
  | blocked
  /-- The session has left. -/
  | broken (reason : String)
  deriving DecidableEq, Repr, Inhabited

/-- What a peer has read. -/
structure Haul where
  frames : List Bytes
  /-- The beginning of a frame that is not complete. -/
  rest : Bytes
  /-- The session writes nothing more. -/
  ended : Bool
  deriving DecidableEq, Repr, Inhabited

namespace Exchange

variable {H : Type} [SessionHandler H]

/-- The exchange over a stream. A session that is refused leaves its end of the stream at once. -/
def begin (h : H) (pipe : Pipe) (readTimeout now : Nat) :
    Except ProtocolError Unit × Exchange × H :=
  match Session.start (SessionHandler.atTime h now) pipe readTimeout now with
  | (.ok session, h) => (.ok (), { session, attended := !pipe.farGone }, h)
  | (.error e, h) =>
    let session : Session := { seat := 0, readTimeout, pipe, phase := .over, writing := false }
    (.error e, { session := session.finish, attended := !pipe.farGone }, h)

/-- Lets time pass up to a target. -/
def advance (h : H) (x : Exchange) (now target : Nat) : Exchange × H :=
  let (session, h) := x.session.advance h now target
  ({ x with session }, h)

/-- The peer writes. -/
def write (h : H) (x : Exchange) (now : Nat) (bytes : Bytes) : Delivery × Exchange × H :=
  match x.session.feed h now bytes with
  | (.error reason, session, h) => (.broken reason, { x with session }, h)
  | (.ok [], session, h) => (.written, { x with session }, h)
  | (.ok _, session, h) => (.blocked, { x with session }, h)

/-- The peer reads everything, and is told whether that was the end. -/
def read (h : H) (x : Exchange) (now : Nat) : Bytes × Bool × Exchange × H :=
  let (bytes, session, h) := x.session.drain h now
  (bytes, session.pipe.endedFar, { x with session }, h)

/-- The peer reads whole frames. -/
def readFrames (h : H) (x : Exchange) (now : Nat) : Haul × Exchange × H :=
  let (bytes, ended, x, h) := x.read h now
  let (frames, rest) := Frame.split (x.rest ++ bytes)
  ({ frames, rest, ended }, { x with rest }, h)

/-- Changes the stream. -/
def mapPipe (x : Exchange) (f : Pipe → Pipe) : Exchange :=
  { x with session := { x.session with pipe := f x.session.pipe } }

/-- The peer writes nothing more. -/
def endWriting (x : Exchange) : Exchange := x.mapPipe ({ · with farFinished := true })

/-- The peer goes away. -/
def leave (x : Exchange) : Exchange :=
  { x.mapPipe ({ · with farGone := true }) with attended := false }

end Exchange
end ShardMesh
