import ShardMesh.Listener
import ShardMesh.Metrics

/-!
# The dispatcher

A dispatcher hands every event to all its listeners. Each listener has a worker of its own with a
queue, so a slow listener delays nobody else. A worker repeats three steps: `Worker.take` takes the
oldest event if the registration is still there, `Worker.call` calls the listener with it, and
`Worker.finish` is the end of the callback. Between these the worker may lose its registration; what
still waits is dropped then, and the event that it took comes to the end of its callback.

A name that no thread can have breaks the registration off in the middle and leaves the dispatcher
stuck: from then on nothing can be registered or dispatched, only shut down.
-/

namespace ShardMesh

/-- Whether a thread can have a name: no NUL is in it. -/
def isThreadName (name : String) : Bool := !name.toList.contains '\x00'

/-! ## Workers -/

/-- What a worker does. -/
inductive Activity (P : Type) where
  /-- It waits for an event. -/
  | waiting
  /-- It has taken an event, and has not called the listener yet. -/
  | holding (event : ConnectionEvent P)
  /-- The callback for an event runs. -/
  | calling (event : ConnectionEvent P)
  deriving Inhabited

/-- A listener with its queue. -/
structure Worker (P : Type) where
  /-- Which registration it serves, counted from zero. -/
  number : Nat
  name : String
  listener : Listener P
  /-- Events that wait, oldest first. -/
  queue : List (ConnectionEvent P) := []
  activity : Activity P := .waiting
  /-- Events whose callback has begun, oldest first. -/
  called : List (ConnectionEvent P) := []

namespace Worker

variable {P : Type}

/-- Whether an event was taken whose callback has not ended. -/
def busy (w : Worker P) : Bool :=
  match w.activity with
  | .waiting => false
  | .holding _ | .calling _ => true

/-- The event that was taken and that the listener was not called with yet. -/
def held? (w : Worker P) : Option (ConnectionEvent P) :=
  match w.activity with
  | .holding e => some e
  | .waiting | .calling _ => none

/-- Takes the oldest event, unless the worker is busy or nothing waits. -/
def take (w : Worker P) : Worker P :=
  match w.activity, w.queue with
  | .waiting, e :: rest => { w with queue := rest, activity := .holding e }
  | _, _ => w

/-- Calls the listener with the event that was taken. -/
def call (w : Worker P) : Worker P :=
  match w.activity with
  | .holding e => { w with activity := .calling e, called := w.called ++ [e] }
  | _ => w

/-- The callback that runs ends in some way; failures are counted and have no other effect. -/
def finish (w : Worker P) (reaction : Reaction) (m : Metrics) : Worker P × Metrics :=
  match w.activity with
  | .calling _ =>
    ({ w with activity := .waiting },
      match reaction with
      | .ignored | .completed => m
      | .failed => m.listenerFailure
      | .panicked => m.listenerPanic)
  | _ => (w, m)

/-- How the listener reacts to the event that it is called with. -/
def reaction (w : Worker P) : Reaction :=
  match w.activity with
  | .calling e => w.listener e
  | _ => .ignored

/-- Brings an event that was taken to its end. -/
def complete (w : Worker P) (m : Metrics) : Worker P × Metrics := w.call.finish w.call.reaction m

/-- Lets the worker run until nothing waits, given enough fuel. -/
def runFor (fuel : Nat) (w : Worker P) (m : Metrics) : Worker P × Metrics :=
  match fuel with
  | 0 => (w, m)
  | fuel + 1 =>
    let (w, m) := w.take.complete m
    runFor fuel w m

/-- Lets the worker run until nothing waits. -/
def run (w : Worker P) (m : Metrics) : Worker P × Metrics := runFor (w.queue.length + 1) w m

/-- The events for which the listener has a callback, of those it was called with. -/
def heard (w : Worker P) : List (ConnectionEvent P) :=
  w.called.filter fun e => w.listener e ≠ .ignored

end Worker

/-! ## The dispatcher -/

/-- The workers of the registered listeners, in the order of registration. -/
structure Dispatcher (P : Type) where
  workers : List (Worker P) := []
  /-- Workers without registration whose last event has not come to its end. -/
  leaving : List (Worker P) := []
  /-- How many registrations there have been. -/
  registrations : Nat := 0
  /-- A registration was broken off in the middle. -/
  stuck : Bool := false
  deriving Inhabited

namespace Dispatcher

variable {P : Type}

/-- Registers a listener under a name of its own. -/
def add (d : Dispatcher P) (name : String) (listener : Listener P) :
    Except ProtocolError Unit × Dispatcher P :=
  if d.stuck then (.error (.custom "Failed to acquire write lock on dispatcher"), d)
  else if d.workers.any (·.name = name) then (.error (.duplicateListener name), d)
  else if !isThreadName name then
    (.error (.unusableThreadName name), { d with stuck := true })
  else
    (.ok (), { d with
      workers := d.workers ++ [{ number := d.registrations, name, listener }]
      registrations := d.registrations + 1 })

/-- Ends registrations: what waits is dropped, and what was taken comes to its end. -/
def dismiss (d : Dispatcher P) (dismissed : Worker P → Bool) : Dispatcher P :=
  let gone := d.workers.filter fun w => dismissed w && w.busy
  { d with
    workers := d.workers.filter fun w => !dismissed w
    leaving := d.leaving ++ gone.map fun w => { w with queue := [] } }

/-- Unregisters a listener, and says whether there was one of that name. -/
def remove (d : Dispatcher P) (name : String) : Except ProtocolError Bool × Dispatcher P :=
  if d.stuck then (.error (.custom "Failed to acquire write lock on dispatcher"), d)
  else (.ok (d.workers.any (·.name = name)), d.dismiss (·.name = name))

/-- Lets an event wait for every listener. -/
def dispatch (d : Dispatcher P) (event : ConnectionEvent P) :
    Except ProtocolError Unit × Dispatcher P :=
  if d.stuck then (.error (.custom "Failed to acquire read lock on dispatcher"), d)
  else (.ok (), { d with workers := d.workers.map fun w => { w with queue := w.queue ++ [event] } })

/-- Unregisters all listeners. -/
def shutdown (d : Dispatcher P) : Dispatcher P := d.dismiss fun _ => true

/-- The names of the listeners in the order of registration. -/
def names (d : Dispatcher P) : List String := if d.stuck then [] else d.workers.map (·.name)

/-- The number of listeners. -/
def size (d : Dispatcher P) : Nat := d.names.length

/-- Lets all workers run until nothing waits. -/
def settle (d : Dispatcher P) (m : Metrics) : Dispatcher P × Metrics :=
  let (workers, m) := d.workers.foldl (fun (done, m) w =>
    let (w, m) := w.run m
    (w :: done, m)) ([], m)
  let m := d.leaving.foldl (fun m w => (w.complete m).2) m
  ({ d with workers := workers.reverse, leaving := [] }, m)

/-- What each listener heard since that was last asked, those left out who heard nothing. -/
def report (d : Dispatcher P) : List (String × List (ConnectionEvent P)) × Dispatcher P :=
  ((d.workers.map fun w => (w.name, w.heard)).filter fun (_, events) => !events.isEmpty,
    { d with workers := d.workers.map fun w => { w with called := [] } })

end Dispatcher
end ShardMesh
