import ShardMesh.Compression.Standard
import ShardMesh.Session.Exchange
import ShardMesh.Session.Journal

/-!
# A session by itself

A rehearsal is an exchange whose session is handled by a journal, on a clock of its own. It shows
what a handler is told and when. Whoever rehearses brings no compressors along; the standard ones are
at hand.
-/

namespace ShardMesh

/-- An exchange with the journal that handles it. -/
structure Rehearsal (P : Type) where
  journal : Journal P
  exchange : Exchange
  /-- How the session began. -/
  beginning : Except ProtocolError Unit
  /-- The time that has passed, in milliseconds. -/
  now : Nat := 0

namespace Rehearsal

variable {P : Type} [Packet P]

/-- Lets time pass. -/
def advance (r : Rehearsal P) (millis : Nat) : Rehearsal P :=
  let target := r.now + waitFor millis
  let (exchange, journal) := r.exchange.advance r.journal r.now target
  { r with exchange, journal, now := target }

/-- Begins a session over a stream. -/
def begin (journal : Journal P) (pipe : Pipe) (readTimeout : Nat) : Rehearsal P :=
  let (beginning, exchange, journal) := Exchange.begin journal pipe readTimeout 0
  advance { journal, exchange, beginning } 0

/-- How the session ended, if it has. -/
def result? (r : Rehearsal P) : Option (Except ProtocolError Unit) :=
  if r.exchange.session.phase = .over then some r.beginning else none

/-- Does something with the journal. -/
def withJournal {α : Type} (r : Rehearsal P) (f : Journal P → α × Journal P) : α × Rehearsal P :=
  let (a, journal) := f r.journal
  (a, { r with journal })

/-- Does something with the peer, if it is there. -/
def withPeer {α : Type} (r : Rehearsal P) (f : Journal P → Exchange → α × Exchange × Journal P) :
    Option α × Rehearsal P :=
  if r.exchange.attended then
    let (a, exchange, journal) := f r.journal r.exchange
    (some a, { r with exchange, journal })
  else (none, r)

/-- Changes the stream. -/
def mapPipe (r : Rehearsal P) (f : Pipe → Pipe) : Rehearsal P :=
  { r with exchange := r.exchange.mapPipe f }

end Rehearsal
end ShardMesh
