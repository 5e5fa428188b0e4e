import ShardMesh.Proofs.Dispatcher.Delivery

/-!
# Registrations that are refused

A dispatcher registers no listener under a name that is taken, none under a name that no thread can
have, and none at all when it is stuck. Whether a name is taken is found out before anything is done,
so nobody can tell afterwards that the listener was refused. That no thread can have a name is found
out in the middle of the registration, and the dispatcher is stuck from then on: what waits for its
listeners still reaches them, and it can be shut down, but that is all (`after_refusal`).
-/

namespace ShardMesh

variable {P : Type}

namespace Dispatcher

/-- What a call of a dispatcher answers. -/
inductive Answer where
  | added (result : Except ProtocolError Unit)
  | removed (result : Except ProtocolError Bool)
  | dispatched (result : Except ProtocolError Unit)
  | shutDown

/-- The answer, if the step is a call and not something that a worker does. -/
def Step.answer? (d : Dispatcher P) : Step P → Option Answer
  | .add name listener => some (.added (d.add name listener).1)
  | .remove name => some (.removed (d.remove name).1)
  | .dispatch event => some (.dispatched (d.dispatch event).1)
  | .shutdown => some .shutDown
  | .take _ | .call _ | .finish .. => none

/-- What a dispatcher that is stuck answers. -/
def Step.stuckAnswer? : Step P → Option Answer
  | .add .. => some (.added (.error (.custom "Failed to acquire write lock on dispatcher")))
  | .remove _ => some (.removed (.error (.custom "Failed to acquire write lock on dispatcher")))
  | .dispatch _ => some (.dispatched (.error (.custom "Failed to acquire read lock on dispatcher")))
  | .shutdown => some .shutDown
  | .take _ | .call _ | .finish .. => none

/-- Whether the step does with a dispatcher that is stuck what it does with any other. -/
def Step.passes : Step P → Bool
  | .add .. | .remove _ | .dispatch _ => false
  | .shutdown | .take _ | .call _ | .finish .. => true

theorem answer?_of_stuck {d : Dispatcher P} (h : d.stuck) (s : Step P) :
    s.answer? d = s.stuckAnswer? := by
  cases s with
  | add name listener => rw [Step.answer?, add, if_pos h, Step.stuckAnswer?]
  | remove name => rw [Step.answer?, remove, if_pos h, Step.stuckAnswer?]
  | dispatch event => rw [Step.answer?, dispatch, if_pos h, Step.stuckAnswer?]
  | shutdown | take | call | finish => rfl

theorem names_of_stuck {d : Dispatcher P} (h : d.stuck) : d.names = [] := if_pos h

/-- All that can come of a registration. -/
theorem add_cases (d : Dispatcher P) (name : String) (listener : Listener P) :
    d.stuck ∧ d.add name listener =
        (.error (.custom "Failed to acquire write lock on dispatcher"), d) ∨
      ¬d.stuck ∧ name ∈ d.names ∧ d.add name listener = (.error (.duplicateListener name), d) ∨
      ¬d.stuck ∧ name ∉ d.names ∧ isThreadName name = false ∧
        d.add name listener = (.error (.unusableThreadName name), { d with stuck := true }) ∨
      isThreadName name ∧ (d.add name listener).1 = .ok () := by
  by_cases hstuck : d.stuck
  · exact .inl ⟨hstuck, by rw [add, if_pos hstuck]⟩
  right
  have htaken : d.workers.any (·.name = name) ↔ name ∈ d.names := by
    rw [names, if_neg hstuck, List.any_eq_true, List.mem_map]
    simp only [decide_eq_true_eq]
  by_cases hname : name ∈ d.names
  · exact .inl ⟨hstuck, hname, by rw [add, if_neg hstuck, if_pos (htaken.mpr hname)]⟩
  right
  have hfree := mt htaken.mp hname
  cases hthread : isThreadName name with
  | false =>
    refine .inl ⟨hstuck, hname, rfl, ?_⟩
    rw [add, if_neg hstuck, if_neg hfree, hthread]
    rfl
  | true =>
    refine .inr ⟨rfl, ?_⟩
    rw [add, if_neg hstuck, if_neg hfree, hthread]
    rfl

end Dispatcher

namespace DispatcherRun

open Dispatcher (Step Answer)
open Happening

variable {run : DispatcherRun P}

/-- What the calls among the steps answer, in order. -/
def answers (run : DispatcherRun P) : List (Step P) → List Answer
  | [] => []
  | s :: rest => (s.answer? run.dispatcher).toList ++ (run.step s).answers rest

/-- Nobody can tell two runs apart from here on: whatever is called and however the workers proceed,
    the same is answered, the same listeners are registered, and they are called with the same. -/
def AlikeFrom (run run' : DispatcherRun P) : Prop :=
  ∀ later : List (Step P),
    run.answers later = run'.answers later ∧
    (run.steps later).dispatcher.names = (run'.steps later).dispatcher.names ∧
    (run.steps later).dispatcher.size = (run'.steps later).dispatcher.size ∧
    ∀ n, calledBy n (run.steps later).journal = calledBy n (run'.steps later).journal

/-! ## Runs with a dispatcher that is stuck -/

/-- The run with a dispatcher that is stuck. -/
def jam (run : DispatcherRun P) : DispatcherRun P :=
  { run with dispatcher := { run.dispatcher with stuck := true } }

theorem step_jam (run : DispatcherRun P) (s : Step P) :
    run.jam.step s = if s.passes then (run.step s).jam else run.jam := by
  cases s <;> rfl

/-- A dispatcher that is stuck stays so, and but for that the run is the one without the steps that
    it refuses. -/
theorem steps_jam (run : DispatcherRun P) (later : List (Step P)) :
    run.jam.steps later = (run.steps (later.filter (·.passes))).jam := by
  induction later generalizing run with
  | nil => rfl
  | cons s rest ih =>
    show (run.jam.step s).steps rest = _
    rw [step_jam, List.filter_cons]
    split
    · exact ih (run.step s)
    · exact ih run

theorem answers_jam (run : DispatcherRun P) (later : List (Step P)) :
    run.jam.answers later = later.filterMap (·.stuckAnswer?) := by
  induction later generalizing run with
  | nil => rfl
  | cons s rest ih =>
    have hrest : (run.jam.step s).answers rest = rest.filterMap (·.stuckAnswer?) := by
      rw [step_jam]
      split
      · exact ih (run.step s)
      · exact ih run
    rw [answers, hrest, Dispatcher.answer?_of_stuck rfl, List.filterMap_cons]
    cases s.stuckAnswer? <;> rfl

theorem jam_of_stuck (h : run.dispatcher.stuck) : run.jam = run := by
  obtain ⟨⟨workers, leaving, registrations, stuck⟩, metrics, journal⟩ := run
  obtain rfl : stuck = true := h
  rfl

theorem step_add_of_error {name : String} {listener : Listener P} {e : ProtocolError}
    {d : Dispatcher P} (h : run.dispatcher.add name listener = (.error e, d)) :
    run.step (.add name listener) = { run with dispatcher := d } := by
  rw [step, h]

theorem Sound.step_or_stuck (h : run.Sound) (s : Step P) :
    (run.step s).Sound ∨ (run.step s).dispatcher.stuck := by
  by_cases husable : s.usable
  · exact .inl (h.step husable)
  cases s with
  | add name listener =>
    rcases run.dispatcher.add_cases name listener with
      ⟨hstuck, -⟩ | ⟨-, -, hadd⟩ | ⟨-, -, -, hadd⟩ | ⟨hthread, -⟩
    · exact absurd hstuck h.not_stuck
    · rw [step_add_of_error hadd]
      exact .inl h
    · rw [step_add_of_error hadd]
      exact .inr rfl
    · exact absurd hthread husable
  | remove | dispatch | shutdown | take | call | finish => exact absurd rfl husable

/-- Whatever happened to a dispatcher, it is stuck if it is not sound. -/
theorem sound_or_stuck (past : List (Step P)) :
    (({} : DispatcherRun P).steps past).Sound ∨
      (({} : DispatcherRun P).steps past).dispatcher.stuck := by
  have hsteps (run : DispatcherRun P) (h : run.Sound ∨ run.dispatcher.stuck) :
      (run.steps past).Sound ∨ (run.steps past).dispatcher.stuck := by
    induction past generalizing run with
    | nil => exact h
    | cons s rest ih =>
      refine ih (run.step s) ?_
      rcases h with hsound | hstuck
      · exact hsound.step_or_stuck s
      · right
        rw [← jam_of_stuck hstuck, step_jam]
        split <;> rfl
  exact hsteps {} (.inl sound_start)

/-! ## What a refusal leaves behind -/

/-- What a dispatcher that is stuck does not refuse lets nothing wait for a listener. -/
theorem sentTo_of_passes (run : DispatcherRun P) {s : Step P} (hs : s.passes) (n : Nat) :
    sentTo n (run.step s).journal = sentTo n run.journal := by
  cases s with
  | add | remove | dispatch => cases hs
  | shutdown =>
    obtain ⟨-, -, hsent, -⟩ := unregistered_append
      (run.dispatcher.workers.filter fun _ => true) run.journal
    exact hsent n
  | call number =>
    obtain ⟨-, -, hsent, -⟩ := called_append
      ((run.dispatcher.worker? number).bind (·.held?)) number run.journal
    exact hsent n
  | take | finish => rfl

/-- Without the steps that a dispatcher that is stuck refuses, listeners are only called with what
    was sent to them before. -/
theorem Sound.called_begins_sent_before (h : run.Sound) (later : List (Step P)) (n : Nat) :
    calledBy n (run.steps (later.filter (·.passes))).journal <+: sentTo n run.journal := by
  induction later generalizing run with
  | nil => exact h.called_begins_sent n
  | cons s rest ih =>
    rw [List.filter_cons]
    split
    · rename_i hs
      have husable : s.usable := by
        cases s with
        | add => cases hs
        | remove | dispatch | shutdown | take | call | finish => rfl
      rw [← sentTo_of_passes run hs]
      exact ih (h.step husable)
    · exact ih h

/-- Whatever happened to a dispatcher before, nobody can tell afterwards that a registration was
    refused, unless that was because no thread can have the name. Then the dispatcher is stuck for
    good: it refuses all calls but to be shut down, and names nobody, and its listeners hear what
    they would hear without the calls that are refused, which is what was sent to them before. -/
theorem after_refusal (past : List (Step P)) (name : String) (listener : Listener P)
    (e : ProtocolError)
    (h : ((({} : DispatcherRun P).steps past).dispatcher.add name listener).1 = .error e) :
    let run := ({} : DispatcherRun P).steps past
    let after := run.step (.add name listener)
    (after.AlikeFrom run ↔ e ≠ .unusableThreadName name) ∧
      (e = .duplicateListener name ↔ name ∈ run.dispatcher.names) ∧
      (e = .unusableThreadName name ↔
        ¬run.dispatcher.stuck ∧ name ∉ run.dispatcher.names ∧ isThreadName name = false) ∧
      (e = .unusableThreadName name → ∀ later : List (Step P),
        after.answers later = later.filterMap (·.stuckAnswer?) ∧
          (after.steps later).dispatcher.names = [] ∧ (after.steps later).dispatcher.size = 0 ∧
          (after.steps later).journal = (run.steps (later.filter (·.passes))).journal ∧
          ∀ n, calledBy n (after.steps later).journal <+: sentTo n run.journal) := by
  intro run after
  have hsame (hafter : after = run) : after.AlikeFrom run := by
    rw [hafter]
    exact fun later => ⟨rfl, rfl, rfl, fun _ => rfl⟩
  have herror {cause : ProtocolError} {d : Dispatcher P}
      (hadd : run.dispatcher.add name listener = (.error cause, d)) : cause = e :=
    Except.error.inj ((congrArg Prod.fst hadd).symm.trans h)
  rcases run.dispatcher.add_cases name listener with
    ⟨hstuck, hadd⟩ | ⟨hfree, htaken, hadd⟩ | ⟨hfree, htaken, hthread, hadd⟩ | ⟨-, hok⟩
  · obtain rfl := herror hadd
    have hnone : name ∉ run.dispatcher.names := by
      rw [Dispatcher.names_of_stuck hstuck]
      exact List.not_mem_nil
    exact ⟨⟨fun _ => nofun, fun _ => hsame (step_add_of_error hadd)⟩,
      ⟨nofun, fun hname => absurd hname hnone⟩, ⟨nofun, fun hunusable => absurd hstuck hunusable.1⟩,
      nofun⟩
  · obtain rfl := herror hadd
    exact ⟨⟨fun _ => nofun, fun _ => hsame (step_add_of_error hadd)⟩,
      ⟨fun _ => htaken, fun _ => rfl⟩, ⟨nofun, fun hunusable => absurd htaken hunusable.2.1⟩, nofun⟩
  · obtain rfl := herror hadd
    have hafter : after = run.jam := step_add_of_error hadd
    have hsound : run.Sound := (sound_or_stuck past).resolve_right hfree
    refine ⟨⟨fun halike => ?_, fun hne => absurd rfl hne⟩, ⟨nofun, fun hname => absurd hname htaken⟩,
      ⟨fun _ => ⟨hfree, htaken, hthread⟩, fun _ => rfl⟩, fun _ later => ?_⟩
    · -- to ask for the removal of a listener tells them apart
      have hanswers := (halike [.remove name]).1
      rw [hafter, answers_jam, answers, Step.answer?, Dispatcher.remove, if_neg hfree] at hanswers
      cases hanswers
    · rw [hafter, answers_jam, steps_jam]
      exact ⟨rfl, rfl, rfl, rfl, hsound.called_begins_sent_before later⟩
  · cases hok.symm.trans h

/-- One listener is registered, and one of two events waits for it. -/
def listening : List (Step Nat) :=
  [.add "audit" (.always .completed), .dispatch ⟨none, .packet 1⟩, .take 0, .call 0,
    .finish 0 .completed, .dispatch ⟨none, .packet 2⟩]

theorem after_two_refusals :
    let run := ({} : DispatcherRun Nat).steps listening
    let taken := run.step (.add "audit" .minimal)
    let unusable := run.step (.add "a\x00b" .minimal)
    let later := [.remove "audit", .take 0, .dispatch ⟨none, .packet 3⟩, .call 0]
    (run.dispatcher.add "audit" .minimal).1 = .error (.duplicateListener "audit") ∧
      taken.AlikeFrom run ∧
      (run.dispatcher.add "a\x00b" .minimal).1 = .error (.unusableThreadName "a\x00b") ∧
      ¬unusable.AlikeFrom run ∧ (unusable.steps later).dispatcher.names = [] ∧
      calledBy 0 (unusable.steps later).journal <+: sentTo 0 run.journal ∧
      calledBy 0 (unusable.steps later).journal = [⟨none, .packet 1⟩, ⟨none, .packet 2⟩] := by
  intro run taken unusable later
  have htaken : (run.dispatcher.add "audit" .minimal).1 = .error (.duplicateListener "audit") := rfl
  have hunusable : (run.dispatcher.add "a\x00b" .minimal).1 =
      .error (.unusableThreadName "a\x00b") := rfl
  have hfirst := after_refusal listening "audit" .minimal _ htaken
  obtain ⟨halike, -, -, hstuck⟩ := after_refusal listening "a\x00b" .minimal _ hunusable
  obtain ⟨-, hnames, -, -, hcalled⟩ := hstuck rfl later
  exact ⟨htaken, hfirst.1.mpr nofun, hunusable, fun h => halike.mp h rfl, hnames, hcalled 0,
    by decide⟩

/-- A registration that fails is noticed afterwards: the listener that there is has no name any
    more, and does not hear what is dispatched. -/
theorem not_alike_after_refusal :
    let run := ({} : DispatcherRun Nat).steps listening
    let after := run.step (.add "a\x00b" .minimal)
    let later := [.take 0, .call 0, .finish 0 .completed, .dispatch ⟨none, .packet 3⟩, .take 0,
      .call 0]
    (∀ d, run.dispatcher.add "a\x00b" .minimal ≠ (.ok (), d)) ∧
      after.dispatcher.names = [] ∧ run.dispatcher.names = ["audit"] ∧
      after.answers later =
        [.dispatched (.error (.custom "Failed to acquire read lock on dispatcher"))] ∧
      run.answers later = [.dispatched (.ok ())] ∧
      calledBy 0 (after.steps later).journal = [⟨none, .packet 1⟩, ⟨none, .packet 2⟩] ∧
      calledBy 0 (run.steps later).journal =
        [⟨none, .packet 1⟩, ⟨none, .packet 2⟩, ⟨none, .packet 3⟩] :=
  ⟨fun _ => nofun, by decide, by decide, rfl, rfl, by decide, by decide⟩

end DispatcherRun
end ShardMesh
