import ShardMesh.Alarm
import ShardMesh.Packet.Basic

/-!
# The link to a peer

A link keeps a node connected to one peer. Each of its dials is made by a client of its own, told
apart by a generation; what a client of another generation reports is ignored. A dial that fails and
a session that is lost bring the link back to the beginning and set the alarm for a retry, of which
there is never more than one. A link that is shut down does nothing any more. A muted link, whose
clients nobody can listen to, never gets as far as a dial.

A link is a state machine. It answers every input with its next state and with what is to be done.
-/

namespace ShardMesh

/-- How far a link is. -/
inductive LinkState where
  | disconnected
  /-- A dial was begun, and there is no session yet. -/
  | connecting
  /-- The session is active. -/
  | connected
  deriving DecidableEq, Repr, Inhabited

/-- The state as it appears in diagnostics. -/
def LinkState.name : LinkState → String
  | .disconnected => "Disconnected"
  | .connecting => "Connecting"
  | .connected => "Connected"

/-- A link to one peer. -/
structure Link where
  /-- Whether no client of the link can be listened to. -/
  muted : Bool := false
  state : LinkState := .disconnected
  /-- The generation of the client that the link holds. -/
  held : Option Nat := none
  /-- When to try again. -/
  retry : Option Alarm := none
  shutDown : Bool := false
  /-- The generation of the latest client. -/
  generation : Nat := 0
  /-- How many dials were begun. -/
  attempts : Nat := 0
  deriving DecidableEq, Repr, Inhabited

/-- What a link is told. -/
inductive LinkInput (P : Type) where
  /-- Somebody wants it connected. -/
  | connect
  /-- Somebody wants it to be tried again later. -/
  | schedule
  /-- The alarm for the retry rings. -/
  | retryDue
  /-- The dial of a generation failed. -/
  | failed (generation : Nat)
  /-- The session of a generation is active. -/
  | active (generation : Nat)
  /-- The session of a generation ended. -/
  | lost (generation : Nat)
  /-- A packet arrived in a generation. -/
  | packet (generation : Nat) (packet : P)
  /-- It is not wanted any more. -/
  | shutDown
  /-- The client that it held when it was shut down is closed. -/
  | closed
  deriving Repr

/-- What a peer's link tells its observers. -/
inductive LinkNotice (P : Type) where
  | up
  | down
  | packet (packet : P)
  deriving DecidableEq, Repr

/-- What is to be done. -/
inductive LinkEffect (P : Type) where
  /-- Make a client of this generation and let it dial. -/
  | dial (generation : Nat)
  /-- Make a client and give it up at once, as nobody can listen to it. -/
  | discard
  /-- Close the client of this generation. -/
  | close (generation : Nat)
  /-- Count that the link came up. -/
  | countConnect
  /-- Count that a retry dials. -/
  | countRetry
  /-- Tell the observers. -/
  | notify (notice : LinkNotice P)
  deriving Repr

namespace Link

variable {P : Type}

/-- Dials, unless the link is connected, about to be, or shut down. -/
def connect (l : Link) : Link × List (LinkEffect P) :=
  if l.shutDown || l.state ≠ .disconnected || l.held.isSome then (l, [])
  else
    let generation := l.generation + 1
    if l.muted then ({ l with generation }, [.discard])
    else
      ({ l with
        generation, held := some generation, state := .connecting, attempts := l.attempts + 1 },
        [.dial generation])

/-- Sets the alarm for a retry, unless it is set already or the link is shut down. -/
def schedule (l : Link) (now delay : Nat) : Link :=
  if l.shutDown || l.retry.isSome then l else { l with retry := some (.after now delay) }

/-- The effect of giving up the client that the link holds. -/
def release (l : Link) : List (LinkEffect P) := (l.held.map LinkEffect.close).toList

/-- Whether a report of a generation is of no interest. -/
def ignores (l : Link) (generation : Nat) : Bool := l.generation ≠ generation || l.shutDown

/-- One step of a link, at a time and with a delay before retries, in milliseconds. -/
def step (l : Link) (now delay : Nat) : LinkInput P → Link × List (LinkEffect P)
  | .connect => l.connect
  | .schedule => (l.schedule now delay, [])
  | .retryDue =>
    let l := { l with retry := none }
    if l.shutDown || l.state ≠ .disconnected then (l, [])
    else
      let (next, effects) := { l with held := none }.connect
      (next, l.release ++ .countRetry :: effects)
  | .failed generation =>
    if l.ignores generation then (l, [])
    else ({ l with state := .disconnected, held := none }.schedule now delay, l.release)
  | .active generation =>
    if l.ignores generation then (l, [])
    else ({ l with state := .connected }, [.countConnect, .notify .up])
  | .lost generation =>
    if l.ignores generation then (l, [])
    else
      ({ l with state := .disconnected, held := none }.schedule now delay,
        l.release ++ if l.state = .connected then [.notify .down] else [])
  | .packet generation packet =>
    if l.generation ≠ generation then (l, []) else (l, [.notify (.packet packet)])
  | .shutDown => ({ l with shutDown := true, retry := none, held := none }, l.release)
  | .closed => ({ l with state := .disconnected }, [])

/-- The generation of the client that can send, if there is one. -/
def sender? (l : Link) : Option Nat := if l.state = .connected then l.held else none

end Link
end ShardMesh
