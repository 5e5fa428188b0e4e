import ShardMesh.Dispatcher

/-!
# A dispatcher with its past

`Dispatcher.Step` is what can happen to a dispatcher: registrations come and go, events are
dispatched, and each worker proceeds at a pace of its own. `DispatcherRun` is a dispatcher with a
journal of what happened, and the journal says what was sent to a registration and what its listener
was called with.
-/

namespace ShardMesh

variable {P : Type}

/-! ## Workers -/

namespace Worker

/-- What the listener has still to be called with: what was taken, and what waits. -/
def pending (w : Worker P) : List (ConnectionEvent P) := w.held?.toList ++ w.queue

/-- A change of what a worker does, which leaves it the worker of its registration. -/
def KeepsIdentity (f : Worker P → Worker P) : Prop :=
  ∀ w, (f w).number = w.number ∧ (f w).name = w.name

theorem take_cases (w : Worker P) :
    w.take = w ∨ ∃ e rest, w.activity = .waiting ∧ w.queue = e :: rest ∧
      w.take = { w with queue := rest, activity := .holding e } := by
  unfold take
  split
  · rename_i e rest hactivity hqueue
    exact .inr ⟨e, rest, hactivity, hqueue, rfl⟩
  · exact .inl rfl

theorem call_cases (w : Worker P) :
    w.call = w ∧ w.held? = none ∨ ∃ e, w.held? = some e ∧
      w.call = { w with activity := .calling e, called := w.called ++ [e] } := by
  unfold call held?
  cases w.activity with
  | waiting => exact .inl ⟨rfl, rfl⟩
  | holding e => exact .inr ⟨e, rfl, rfl⟩
  | calling e => exact .inl ⟨rfl, rfl⟩

theorem finish_cases (w : Worker P) (reaction : Reaction) (m : Metrics) :
    (w.finish reaction m).1 = w ∨ ∃ e, w.activity = .calling e ∧
      (w.finish reaction m).1 = { w with activity := .waiting } := by
  unfold finish
  cases hactivity : w.activity with
  | waiting => exact .inl rfl
  | holding e => exact .inl rfl
  | calling e => exact .inr ⟨e, rfl, rfl⟩

theorem keepsIdentity_take : KeepsIdentity (take (P := P)) := by
  intro w
  rcases w.take_cases with h | ⟨e, rest, -, -, h⟩ <;> rw [h] <;> exact ⟨rfl, rfl⟩

theorem keepsIdentity_call : KeepsIdentity (call (P := P)) := by
  intro w
  rcases w.call_cases with ⟨h, -⟩ | ⟨e, -, h⟩ <;> rw [h] <;> exact ⟨rfl, rfl⟩

theorem keepsIdentity_finish (reaction : Reaction) (m : Metrics) :
    KeepsIdentity fun w : Worker P => (w.finish reaction m).1 := by
  intro w
  dsimp only
  rcases w.finish_cases reaction m with h | ⟨e, -, h⟩ <;> rw [h] <;> exact ⟨rfl, rfl⟩

/-- To take an event changes nothing of what the listener has still to be called with. -/
theorem pending_take (w : Worker P) : w.take.pending = w.pending := by
  rcases w.take_cases with h | ⟨e, rest, hactivity, hqueue, h⟩
  · rw [h]
  · rw [h]
    unfold pending held?
    rw [hactivity, hqueue]
    rfl

theorem pending_finish (w : Worker P) (reaction : Reaction) (m : Metrics) :
    (w.finish reaction m).1.pending = w.pending := by
  rcases w.finish_cases reaction m with h | ⟨e, hactivity, h⟩
  · rw [h]
  · rw [h]
    unfold pending held?
    rw [hactivity]

/-- The listener is called with what was taken. -/
theorem pending_call (w : Worker P) : w.held?.toList ++ w.call.pending = w.pending := by
  rcases w.call_cases with ⟨h, hheld⟩ | ⟨e, hheld, h⟩
  · rw [h, hheld]
    rfl
  · rw [h]
    unfold pending
    rw [hheld]
    rfl

theorem called_take (w : Worker P) : w.take.called = w.called := by
  rcases w.take_cases with h | ⟨e, rest, -, -, h⟩ <;> rw [h]

theorem called_finish (w : Worker P) (reaction : Reaction) (m : Metrics) :
    (w.finish reaction m).1.called = w.called := by
  rcases w.finish_cases reaction m with h | ⟨e, -, h⟩ <;> rw [h]

/-- A worker remembers what it called its listener with. -/
theorem called_call (w : Worker P) : w.call.called = w.called ++ w.held?.toList := by
  rcases w.call_cases with ⟨h, hheld⟩ | ⟨e, hheld, h⟩
  · rw [h, hheld]
    exact (List.append_nil _).symm
  · rw [h, hheld]
    rfl

/-- How a callback ends makes no difference to its worker. -/
theorem finish_fst_congr (w : Worker P) (r r' : Reaction) (m m' : Metrics) :
    (w.finish r m).1 = (w.finish r' m').1 := by
  unfold finish
  cases w.activity <;> rfl

end Worker

/-! ## Steps -/

namespace Dispatcher

/-- Something that happens to a dispatcher. Workers are told apart by their registrations, and any
    callback may end in any way. -/
inductive Step (P : Type) where
  | add (name : String) (listener : Listener P)
  | remove (name : String)
  | dispatch (event : ConnectionEvent P)
  | shutdown
  /-- A worker takes its next event. -/
  | take (number : Nat)
  /-- A worker calls its listener with the event that it took. -/
  | call (number : Nat)
  /-- A callback ends. -/
  | finish (number : Nat) (reaction : Reaction)

/-- The event that is dispatched. -/
def Step.event? : Step P → Option (ConnectionEvent P)
  | .dispatch event => some event
  | _ => none

/-- The step with a callback that ends well. -/
def Step.succeeding : Step P → Step P
  | .finish number _ => .finish number .completed
  | step => step

/-- If the step registers a listener, then under a name that a thread can have. -/
def Step.usable : Step P → Bool
  | .add name _ => isThreadName name
  | _ => true

/-- The worker of a registration, if it has something to do. -/
def worker? (d : Dispatcher P) (number : Nat) : Option (Worker P) :=
  (d.workers ++ d.leaving).find? (·.number = number)

/-- Changes the worker of a registration. A worker without registration is gone as soon as its last
    event has come to its end. -/
def changeWorker (d : Dispatcher P) (number : Nat) (f : Worker P → Worker P) : Dispatcher P :=
  let change (w : Worker P) := if w.number = number then f w else w
  { d with
    workers := d.workers.map change
    leaving := (d.leaving.map change).filter (·.busy) }

end Dispatcher

/-- What is written down about a dispatcher. -/
inductive Happening (P : Type) where
  | registered (number : Nat) (name : String)
  | unregistered (number : Nat)
  | dispatched (event : ConnectionEvent P)
  /-- The listener of a registration was called. -/
  | called (number : Nat) (event : ConnectionEvent P)

/-- A dispatcher with its past. -/
structure DispatcherRun (P : Type) where
  dispatcher : Dispatcher P := {}
  metrics : Metrics := {}
  /-- What happened, the latest first. -/
  journal : List (Happening P) := []

namespace DispatcherRun

open Dispatcher (Step)

/-- The dispatcher has ended registrations. -/
def unregister (run : DispatcherRun P) (dismissed : Worker P → Bool) (d : Dispatcher P) :
    DispatcherRun P :=
  { run with
    dispatcher := d
    journal := (run.dispatcher.workers.filter dismissed).map (fun w => .unregistered w.number) ++
      run.journal }

/-- Makes a step. -/
def step (run : DispatcherRun P) : Step P → DispatcherRun P
  | .add name listener =>
    match run.dispatcher.add name listener with
    | (.ok (), d) =>
      { run with
        dispatcher := d
        journal := .registered run.dispatcher.registrations name :: run.journal }
    | (.error _, d) => { run with dispatcher := d }
  | .remove name =>
    match run.dispatcher.remove name with
    | (.ok _, d) => run.unregister (·.name = name) d
    | (.error _, d) => { run with dispatcher := d }
  | .dispatch event =>
    match run.dispatcher.dispatch event with
    | (.ok (), d) => { run with dispatcher := d, journal := .dispatched event :: run.journal }
    | (.error _, d) => { run with dispatcher := d }
  | .shutdown => run.unregister (fun _ => true) run.dispatcher.shutdown
  | .take number => { run with dispatcher := run.dispatcher.changeWorker number (·.take) }
  | .call number =>
    let held := ((run.dispatcher.worker? number).bind (·.held?)).toList
    { run with
      dispatcher := run.dispatcher.changeWorker number (·.call)
      journal := held.map (.called number) ++ run.journal }
  | .finish number reaction =>
    { run with
      dispatcher := run.dispatcher.changeWorker number fun w => (w.finish reaction run.metrics).1
      metrics := ((run.dispatcher.worker? number).map fun w =>
        (w.finish reaction run.metrics).2).getD run.metrics }

/-- Makes steps one after the other, from wherever a run is. -/
def steps (run : DispatcherRun P) (steps : List (Step P)) : DispatcherRun P := steps.foldl step run

end DispatcherRun

/-! ## The journal -/

namespace Happening

/-- The registrations with their names, in order. -/
def registrations : List (Happening P) → List (Nat × String)
  | [] => []
  | .registered number name :: past => registrations past ++ [(number, name)]
  | _ :: past => registrations past

/-- The registrations that have ended. -/
def departures : List (Happening P) → List Nat
  | [] => []
  | .unregistered number :: past => number :: departures past
  | _ :: past => departures past

/-- A registration was made and has not ended. -/
def Open (journal : List (Happening P)) (number : Nat) : Prop :=
  number ∈ (registrations journal).map Prod.fst ∧ number ∉ departures journal

instance (journal : List (Happening P)) (number : Nat) : Decidable (Open journal number) :=
  inferInstanceAs (Decidable (_ ∧ _))

/-- The events that were dispatched while a registration was open, in order. -/
def sentTo (number : Nat) : List (Happening P) → List (ConnectionEvent P)
  | [] => []
  | .dispatched event :: past =>
    sentTo number past ++ if Open past number then [event] else []
  | _ :: past => sentTo number past

/-- The events with which the listener of a registration was called, in order. -/
def calledBy (number : Nat) : List (Happening P) → List (ConnectionEvent P)
  | [] => []
  | .called caller event :: past =>
    calledBy number past ++ if caller = number then [event] else []
  | _ :: past => calledBy number past

variable {journal : List (Happening P)} {number : Nat}

theorem sentTo_of_not_registered (h : number ∉ (registrations journal).map Prod.fst) :
    sentTo number journal = [] := by
  induction journal with
  | nil => rfl
  | cons happening past ih =>
    cases happening with
    | registered k name =>
      refine ih fun hmem => h ?_
      rw [registrations, List.map_append]
      exact List.mem_append_left _ hmem
    | unregistered k => exact ih h
    | called k event => exact ih h
    | dispatched event =>
      have hclosed : ¬Open past number := fun hopen => h hopen.1
      rw [sentTo, if_neg hclosed, List.append_nil]
      exact ih h

/-- That registrations end changes nothing else. -/
theorem unregistered_append (gone : List (Worker P)) (journal : List (Happening P)) :
    let after := gone.map (fun w => .unregistered w.number) ++ journal
    registrations after = registrations journal ∧
      departures after = gone.map (·.number) ++ departures journal ∧
      (∀ n, sentTo n after = sentTo n journal) ∧ ∀ n, calledBy n after = calledBy n journal := by
  induction gone with
  | nil => exact ⟨rfl, rfl, fun _ => rfl, fun _ => rfl⟩
  | cons w gone ih =>
    obtain ⟨hregistrations, hdepartures, hsent, hcalled⟩ := ih
    exact ⟨hregistrations, congrArg (w.number :: ·) hdepartures, hsent, hcalled⟩

/-- That a listener was called with what its worker held changes only what it was called with. -/
theorem called_append (held : Option (ConnectionEvent P)) (caller : Nat)
    (journal : List (Happening P)) :
    let after := held.toList.map (.called caller) ++ journal
    registrations after = registrations journal ∧ departures after = departures journal ∧
      (∀ n, sentTo n after = sentTo n journal) ∧
      (calledBy caller after = calledBy caller journal ++ held.toList) ∧
      ∀ n, n ≠ caller → calledBy n after = calledBy n journal := by
  cases held with
  | none => exact ⟨rfl, rfl, fun _ => rfl, (List.append_nil _).symm, fun _ _ => rfl⟩
  | some event =>
    refine ⟨rfl, rfl, fun _ => rfl, ?_, fun n hn => ?_⟩
    · show calledBy caller journal ++ _ = _
      rw [if_pos rfl]
      rfl
    · show calledBy n journal ++ _ = _
      rw [if_neg hn.symm, List.append_nil]

end Happening

end ShardMesh
