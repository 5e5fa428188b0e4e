import ShardMesh.Alarm
import ShardMesh.Connection
import ShardMesh.Session.Pipe

/-!
# Driving a session

A session carries the bytes of a stream to a connection and back. Its reader cuts what arrives
into frames and hands each to whoever handles the connection; its writer takes frames from the
connection's transport, in order, and writes them. The reader ends at the end of the stream, when
the transport is closed, when no frame arrived for the read timeout, or when reading fails; its
handler hears of that once. Then the writer gets the length of the read timeout to write what still
waits, and the session is over.

Time is given from outside, in milliseconds. Reader and writer proceed in steps; `Session.settle`
repeats them until neither can do more, and `Session.ring` is what happens when the deadline of the
phase has come.
-/

namespace ShardMesh

/-- Handles the connections of sessions. -/
class SessionHandler (H : Type) where
  /-- A session begins: seats a connection with the given transport, or refuses and gives the
  transport back. -/
  onReady : H → Transport → Except (ProtocolError × Transport) Seat × H
  /-- A whole frame arrived. -/
  onFrame : H → Seat → Bytes → H
  /-- The session has ended. -/
  onClosed : H → Seat → DisconnectReason → H
  /-- Writing has failed. -/
  onWriteError : H → Seat → ProtocolError → H
  /-- The transport of a connection. -/
  transport : H → Seat → Transport
  /-- Changes the transport of a connection. -/
  setTransport : H → Seat → Transport → H
  /-- Learns what time it is. -/
  atTime : H → Nat → H := fun h _ => h

/-- How far a session is. -/
inductive Phase where
  /-- The reader waits for a frame until a deadline. -/
  | reading (deadline : Nat)
  /-- The reader has ended, and the writer is waited for until a deadline. -/
  | closing (deadline : Nat)
  /-- The reader was broken off, and nobody waits for the writer. -/
  | abandoned
  /-- Everything has ended. -/
  | over
  deriving DecidableEq, Repr, Inhabited

/-- A session over a stream. -/
structure Session where
  seat : Seat
  /-- In milliseconds. -/
  readTimeout : Nat
  pipe : Pipe
  phase : Phase
  /-- What arrived and is not yet a frame. -/
  received : Bytes := []
  /-- What is left of the frame that is being written. -/
  sending : Bytes := []
  /-- Whether the writer goes on. -/
  writing : Bool := true
  deriving Repr, Inhabited

namespace Session

variable {H : Type} [SessionHandler H]

/-- Begins a session with a fresh transport. -/
def start (h : H) (pipe : Pipe) (readTimeout now : Nat) : Except ProtocolError Session × H :=
  match SessionHandler.onReady h {} with
  | (.ok seat, h) =>
    let readTimeout := waitFor readTimeout
    (.ok { seat, readTimeout, pipe, phase := .reading (now + readTimeout) }, h)
  | (.error (e, _), h) => (.error e, h)

/-- The reader ends for a reason. -/
def endReading (h : H) (s : Session) (now : Nat) (reason : DisconnectReason) : Session × H :=
  let h := SessionHandler.setTransport h s.seat (SessionHandler.transport h s.seat).close
  ({ s with phase := .closing (now + s.readTimeout) }, SessionHandler.onClosed h s.seat reason)

/-- One step of the reader, if it can do one. -/
def readStep (h : H) (s : Session) (now : Nat) : Option (Session × H) :=
  match s.phase with
  | .reading _ =>
    if (SessionHandler.transport h s.seat).closed then some (s.endReading h now .closed)
    else
      match Frame.next? s.received with
      | some (frame, received) =>
        some ({ s with received, phase := .reading (now + s.readTimeout) },
          SessionHandler.onFrame h s.seat frame)
      | none =>
        match s.pipe.readNear with
        | (.data bytes, pipe) => some ({ s with pipe, received := s.received ++ bytes }, h)
        | (.ended, _) =>
          some (s.endReading h now (if s.received.isEmpty then .closed else .protocolException))
        | (.fault _, _) => some (s.endReading h now .reset)
        | (.nothing, _) => none
  | _ => none

/-- The writer ends, and gives up the frames that still wait. If all that it began is written, it
finishes its direction of the stream. -/
def endWriting (h : H) (s : Session) (finished : Bool) : Session × H :=
  ({ s with
      writing := false
      sending := []
      pipe := { s.pipe with nearFinished := s.pipe.nearFinished || finished } },
    SessionHandler.setTransport h s.seat (SessionHandler.transport h s.seat).abandon)

/-- One step of the writer, if it can do one. -/
def writeStep (h : H) (s : Session) : Option (Session × H) :=
  if !s.writing then none
  else if !s.sending.isEmpty then
    match s.pipe.writeNear s.sending with
    | .error reason => some (s.endWriting (SessionHandler.onWriteError h s.seat (.io reason)) false)
    | .ok (rest, pipe) =>
      if rest.length = s.sending.length then none else some ({ s with pipe, sending := rest }, h)
  else
    let t := SessionHandler.transport h s.seat
    match t.queue with
    | frame :: queue =>
      let h := SessionHandler.setTransport h s.seat { t with queue }
      match Frame.append frame [] with
      | .error e => some (s.endWriting (SessionHandler.onWriteError h s.seat e) true)
      | .ok bytes => some ({ s with sending := bytes }, h)
    | [] => if t.closed then some (s.endWriting h true) else none

/-- The session is over, and nobody is left at the near end. -/
def finish (s : Session) : Session :=
  { s with phase := .over, pipe := { s.pipe with nearGone := true } }

/-- The end of a session of which neither reader nor writer goes on. -/
def endStep (s : Session) : Option Session :=
  match s.phase with
  | .closing _ | .abandoned => if s.writing then none else some s.finish
  | _ => none

/-- One step: the reader first, then the writer, then the end. -/
def step (h : H) (s : Session) (now : Nat) : Option (Session × H) :=
  ((s.readStep h now).orElse fun _ => s.writeStep h).orElse fun _ =>
    s.endStep.map fun s => (s, h)

/-- Repeats steps as long as there is fuel. -/
def settleFor (fuel : Nat) (h : H) (s : Session) (now : Nat) : Session × H :=
  match fuel with
  | 0 => (s, h)
  | fuel + 1 =>
    match s.step h now with
    | some (s, h) => settleFor fuel h s now
    | none => (s, h)

/-- Enough fuel: every arriving byte makes at most one frame, every frame at most one answer, and
a frame that leaves takes a few steps. -/
def fuel (h : H) (s : Session) : Nat :=
  8 * (s.received.length + s.pipe.toNear.length +
    (SessionHandler.transport h s.seat).queue.length + 4)

/-- Repeats steps until none is possible. -/
def settle (h : H) (s : Session) (now : Nat) : Session × H :=
  settleFor (s.fuel h) (SessionHandler.atTime h now) s now

/-! ## Deadlines -/

/-- When the deadline of the phase comes. -/
def alarm? (s : Session) : Option Alarm :=
  match s.phase with
  | .reading deadline | .closing deadline => some ⟨deadline - s.readTimeout, deadline⟩
  | _ => none

/-- What happens at the deadline: the reader ends, or the writer is not waited for any longer. -/
def ring (h : H) (s : Session) (now : Nat) : Session × H :=
  let h := SessionHandler.atTime h now
  match s.phase with
  | .reading _ => s.endReading h now .readTimeout
  | .closing _ =>
    let (s, h) := s.endWriting h false
    (s.finish, h)
  | _ => (s, h)

/-- Lets time pass from deadline to deadline as long as there is fuel. -/
def advanceFor (fuel : Nat) (h : H) (s : Session) (now target : Nat) : Session × H :=
  match fuel with
  | 0 => (s, h)
  | fuel + 1 =>
    let (s, h) := s.settle h now
    match s.alarm? with
    | some alarm =>
      if alarm.due ≤ target then
        let (s, h) := s.ring h (max now alarm.due)
        advanceFor fuel h s (max now alarm.due) target
      else (s, h)
    | none => (s, h)

/-- Lets time pass up to a target. Unless something arrives, a session has at most two deadlines
left. -/
def advance (h : H) (s : Session) (now target : Nat) : Session × H := advanceFor 3 h s now target

/-- Breaks the reader off. The writer goes on by itself. -/
def abandon (s : Session) : Session :=
  match s.phase with
  | .over => s
  | _ => { s with phase := .abandoned }

/-! ## The far end -/

/-- Writes bytes at the far end while the session reads them: what could not be written, or why
nothing can. -/
def feedFor (fuel : Nat) (h : H) (s : Session) (now : Nat) (bytes : Bytes) :
    Except String Bytes × Session × H :=
  match fuel, bytes with
  | 0, _ | _, [] => (.ok bytes, s.settle h now)
  | fuel + 1, _ =>
    match s.pipe.writeFar bytes with
    | .error reason => (.error reason, s, h)
    | .ok (rest, pipe) =>
      let (s, h) := { s with pipe }.settle h now
      if rest.length = bytes.length then (.ok rest, s, h) else feedFor fuel h s now rest

/-- Writes bytes at the far end while the session reads them. -/
def feed (h : H) (s : Session) (now : Nat) (bytes : Bytes) : Except String Bytes × Session × H :=
  if bytes.isEmpty && (s.pipe.nearGone || s.pipe.farFinished) then (.ok [], s, h)
  else feedFor (bytes.length + 1) h s now bytes

/-- Reads at the far end while the session writes, until nothing more comes. -/
def drainFor (fuel : Nat) (h : H) (s : Session) (now : Nat) : Bytes × Session × H :=
  match fuel with
  | 0 => ([], s, h)
  | fuel + 1 =>
    match s.pipe.readFar with
    | ([], _) => ([], s, h)
    | (bytes, pipe) =>
      let (s, h) := { s with pipe }.settle h now
      let (more, s, h) := drainFor fuel h s now
      (bytes ++ more, s, h)

/-- Reads at the far end while the session writes, until nothing more comes. -/
def drain (h : H) (s : Session) (now : Nat) : Bytes × Session × H :=
  let waiting := (SessionHandler.transport h s.seat).queue.foldl (fun n frame => n + frame.length) 0
  drainFor (s.sending.length + waiting + 2) h s now

end Session
end ShardMesh
