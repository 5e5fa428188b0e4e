import ShardMesh.Proofs.Dispatcher.Sound

/-!
# What listeners hear

Whatever the order in which registrations come and go, events are dispatched and workers proceed,
every listener is called with what was dispatched while it was registered, in order and with each
event once. How callbacks end makes no difference to that.
-/

namespace ShardMesh

variable {P : Type}

namespace DispatcherRun

open Dispatcher (Step)
open Happening

variable {run : DispatcherRun P}

/-! ## Whole runs -/

theorem Sound.step (h : run.Sound) {s : Step P} (hs : s.usable) : (run.step s).Sound := by
  cases s with
  | add name listener =>
    rcases h.step_add listener hs with heq | ⟨hfree, heq⟩
    · rw [heq]
      exact h
    · rw [heq]
      exact h.register listener hfree run.metrics
  | remove name =>
    rw [h.step_remove]
    exact h.dismiss _
  | dispatch event =>
    rw [h.step_dispatch]
    exact h.dispatch event run.metrics
  | shutdown => exact h.dismiss _
  | take number =>
    exact (proceeds_of_pending Worker.keepsIdentity_take Worker.pending_take Worker.called_take
      number).sound h _
  | call number => exact (h.proceeds_call number).sound h _
  | finish number reaction =>
    exact (proceeds_of_pending (Worker.keepsIdentity_finish reaction run.metrics)
      (fun w => w.pending_finish reaction _) (fun w => w.called_finish reaction _) number).sound h _

theorem steps_append (run : DispatcherRun P) (before rest : List (Step P)) :
    run.steps (before ++ rest) = (run.steps before).steps rest := List.foldl_append

theorem Sound.steps (h : run.Sound) {steps : List (Step P)} (hs : ∀ s ∈ steps, s.usable) :
    (run.steps steps).Sound := by
  induction steps generalizing run with
  | nil => exact h
  | cons s rest ih =>
    exact ih (h.step (hs s List.mem_cons_self)) fun s hmem => hs s (List.mem_cons_of_mem _ hmem)

/-- A registration that has ended stays ended, and nothing is added to what is left of it. -/
theorem Bounded.step (h : run.Sound) {s : Step P} (hs : s.usable) {n : Nat}
    (hn : n ∈ departures run.journal) {bound : List (ConnectionEvent P)}
    (hbounded : Bounded n bound run) :
    n ∈ departures (run.step s).journal ∧ Bounded n bound (run.step s) := by
  cases s with
  | add name listener =>
    rcases h.step_add listener hs with heq | ⟨-, heq⟩ <;> rw [heq] <;> exact ⟨hn, hbounded⟩
  | remove name =>
    rw [h.step_remove]
    exact ⟨(mem_departures_dismiss _).mpr (.inr hn), hbounded.dismiss _ h hn⟩
  | dispatch event =>
    rw [h.step_dispatch]
    exact ⟨hn, hbounded⟩
  | shutdown => exact ⟨(mem_departures_dismiss _).mpr (.inr hn), hbounded.dismiss _ h hn⟩
  | take number =>
    exact ⟨hn, (proceeds_of_pending Worker.keepsIdentity_take Worker.pending_take
      Worker.called_take number).bounded h hn hbounded _⟩
  | call number =>
    have hproceeds := h.proceeds_call number
    exact ⟨hproceeds.departed ▸ hn, hproceeds.bounded h hn hbounded _⟩
  | finish number reaction =>
    exact ⟨hn, (proceeds_of_pending (Worker.keepsIdentity_finish reaction run.metrics)
      (fun w => w.pending_finish reaction _) (fun w => w.called_finish reaction _)
      number).bounded h hn hbounded _⟩

theorem Bounded.steps (h : run.Sound) {steps : List (Step P)} (hs : ∀ s ∈ steps, s.usable)
    {n : Nat} (hn : n ∈ departures run.journal) {bound : List (ConnectionEvent P)}
    (hbounded : Bounded n bound run) :
    n ∈ departures (run.steps steps).journal ∧ Bounded n bound (run.steps steps) := by
  induction steps generalizing run with
  | nil => exact ⟨hn, hbounded⟩
  | cons s rest ih =>
    have husable := hs s List.mem_cons_self
    obtain ⟨hn, hbounded⟩ := hbounded.step h husable hn
    exact ih (h.step husable) (fun s hmem => hs s (List.mem_cons_of_mem _ hmem)) hn hbounded

/-- A listener is called with what was sent to it, in order, and with each event once. -/
theorem Sound.called_begins_sent (h : run.Sound) (n : Nat) :
    calledBy n run.journal <+: sentTo n run.journal := by
  by_cases hcount : n < run.dispatcher.registrations
  · -- a registration that has ended has no worker to ask, only a bound
    by_cases hdeparted : n ∈ departures run.journal
    · exact (h.bounded n hdeparted).1
    · have hregistered : n ∈ (registrations run.journal).map Prod.fst := by
        rw [h.numbers, List.mem_range]
        exact hcount
      obtain ⟨w, hw, rfl⟩ := h.exists_worker ⟨hregistered, hdeparted⟩
      exact ⟨w.pending, h.pending w hw⟩
  · rw [h.silent n (Nat.le_of_not_lt hcount)]
    exact List.nil_prefix

/-- Only what is dispatched is sent. -/
theorem Sound.sentTo_step (h : run.Sound) {s : Step P} (hs : s.usable) (n : Nat) :
    (sentTo n (run.step s).journal).Sublist (sentTo n run.journal ++ s.event?.toList) := by
  have hdismiss (dismissed : Worker P → Bool) :
      (sentTo n (run.dismiss dismissed).journal).Sublist (sentTo n run.journal ++ []) := by
    obtain ⟨-, -, hsent, -⟩ := unregistered_append
      (run.dispatcher.workers.filter dismissed) run.journal
    rw [List.append_nil]
    exact (hsent n) ▸ List.Sublist.refl _
  cases s with
  | add name listener =>
    rcases h.step_add listener hs with heq | ⟨-, heq⟩ <;> rw [heq] <;>
      exact List.sublist_append_left _ _
  | remove name =>
    rw [h.step_remove]
    exact hdismiss _
  | dispatch event =>
    rw [h.step_dispatch, sentTo]
    refine List.Sublist.append_left ?_ _
    split
    · exact List.Sublist.refl _
    · exact List.nil_sublist _
  | shutdown => exact hdismiss _
  | take number => exact List.sublist_append_left _ _
  | call number =>
    rw [(h.proceeds_call number).sent]
    exact List.sublist_append_left _ _
  | finish number reaction => exact List.sublist_append_left _ _

theorem Sound.sentTo_steps (h : run.Sound) {steps : List (Step P)} (hs : ∀ s ∈ steps, s.usable)
    (n : Nat) : (sentTo n (run.steps steps).journal).Sublist
      (sentTo n run.journal ++ steps.filterMap (·.event?)) := by
  induction steps generalizing run with
  | nil => exact List.sublist_append_left _ _
  | cons s rest ih =>
    have husable := hs s List.mem_cons_self
    have hfirst := h.sentTo_step husable n
    have hrest := ih (h.step husable) fun s hmem => hs s (List.mem_cons_of_mem _ hmem)
    have hevents : (s :: rest).filterMap (·.event?) =
        s.event?.toList ++ rest.filterMap (·.event?) := by
      rw [List.filterMap_cons]
      cases s.event? <;> rfl
    rw [hevents, ← List.append_assoc]
    exact hrest.trans (hfirst.append_right _)

/-- A registration that is yet to come hears nothing of what was dispatched before it. -/
theorem Sound.called_sublist (h : run.Sound) {steps : List (Step P)} (hs : ∀ s ∈ steps, s.usable)
    {n : Nat} (hn : run.dispatcher.registrations ≤ n) :
    (calledBy n (run.steps steps).journal).Sublist (steps.filterMap (·.event?)) := by
  have hnew : n ∉ (registrations run.journal).map Prod.fst := by
    rw [h.numbers, List.mem_range]
    exact Nat.not_lt.mpr hn
  have hsent := h.sentTo_steps hs n
  rw [sentTo_of_not_registered hnew, List.nil_append] at hsent
  exact ((h.steps hs).called_begins_sent n).sublist.trans hsent

/-- What is counted makes no difference to a dispatcher and to who is called. -/
theorem step_congr (d : Dispatcher P) (m m' : Metrics) (journal : List (Happening P))
    (s : Step P) :
    (step ⟨d, m, journal⟩ s).dispatcher = (step ⟨d, m', journal⟩ s).dispatcher ∧
      (step ⟨d, m, journal⟩ s).journal = (step ⟨d, m', journal⟩ s).journal := by
  cases s with
  | add name listener =>
    rw [step, step]
    rcases d.add name listener with ⟨⟨e⟩ | ⟨⟩, d⟩ <;> exact ⟨rfl, rfl⟩
  | remove name =>
    rw [step, step]
    rcases d.remove name with ⟨e | existed, d⟩ <;> exact ⟨rfl, rfl⟩
  | dispatch event =>
    rw [step, step]
    rcases d.dispatch event with ⟨⟨e⟩ | ⟨⟩, d⟩ <;> exact ⟨rfl, rfl⟩
  | shutdown => exact ⟨rfl, rfl⟩
  | take number => exact ⟨rfl, rfl⟩
  | call number => exact ⟨rfl, rfl⟩
  | finish number reaction =>
    refine ⟨?_, rfl⟩
    exact congrArg (d.changeWorker number) (funext fun w => w.finish_fst_congr _ _ _ _)

/-- How a callback ends makes no difference either. -/
theorem step_succeeding {run run' : DispatcherRun P} (hdispatcher : run.dispatcher = run'.dispatcher)
    (hjournal : run.journal = run'.journal) (s : Step P) :
    (run.step s).dispatcher = (run'.step s.succeeding).dispatcher ∧
      (run.step s).journal = (run'.step s.succeeding).journal := by
  obtain ⟨d, m, journal⟩ := run
  obtain ⟨d', m', journal'⟩ := run'
  obtain rfl : d = d' := hdispatcher
  obtain rfl : journal = journal' := hjournal
  cases s with
  | finish number reaction =>
    refine ⟨?_, rfl⟩
    exact congrArg (d.changeWorker number) (funext fun w => w.finish_fst_congr _ _ _ _)
  | _ => exact step_congr d m m' journal _

theorem steps_succeeding {run run' : DispatcherRun P}
    (hdispatcher : run.dispatcher = run'.dispatcher) (hjournal : run.journal = run'.journal)
    (steps : List (Step P)) :
    (run.steps steps).dispatcher = (run'.steps (steps.map (·.succeeding))).dispatcher ∧
      (run.steps steps).journal = (run'.steps (steps.map (·.succeeding))).journal := by
  induction steps generalizing run run' with
  | nil => exact ⟨hdispatcher, hjournal⟩
  | cons s rest ih =>
    obtain ⟨hdispatcher, hjournal⟩ := step_succeeding hdispatcher hjournal s
    exact ih hdispatcher hjournal

/-- Runs that differ in nothing but how callbacks end come to the same. -/
theorem steps_eq_of_succeeding (run : DispatcherRun P) {steps steps' : List (Step P)}
    (h : steps'.map (·.succeeding) = steps.map (·.succeeding)) :
    (run.steps steps').dispatcher = (run.steps steps).dispatcher ∧
      (run.steps steps').journal = (run.steps steps).journal := by
  -- both are compared with the run in which all callbacks end well
  have hsucceeding (steps : List (Step P)) :=
    steps_succeeding (rfl : run.dispatcher = _) (rfl : run.journal = _) steps
  obtain ⟨hdispatcher, hjournal⟩ := hsucceeding steps
  obtain ⟨hdispatcher', hjournal'⟩ := hsucceeding steps'
  rw [h] at hdispatcher' hjournal'
  exact ⟨hdispatcher'.trans hdispatcher.symm, hjournal'.trans hjournal.symm⟩

/-- The listeners are those whose registrations are open, in the order of registration. -/
theorem Sound.names_eq (h : run.Sound) : run.dispatcher.names =
    ((registrations run.journal).filter fun r => Open run.journal r.1).map Prod.snd := by
  have hopen : ∀ r ∈ registrations run.journal,
      decide (r.1 ∉ departures run.journal) = decide (Open run.journal r.1) := fun r hr =>
    decide_eq_decide.mpr ⟨fun hstays => ⟨List.mem_map_of_mem hr, hstays⟩, fun hopen => hopen.2⟩
  rw [Dispatcher.names, if_neg h.not_stuck, ← List.filter_congr hopen, ← h.present, List.map_map]
  rfl

/-- What was sent while a registration is open was delivered, or its worker has it. -/
theorem Sound.delivered (h : run.Sound) {n : Nat} (hopen : Open run.journal n) :
    ∃ w ∈ run.dispatcher.workers, w.number = n ∧ w.called = calledBy n run.journal ∧
      w.called ++ (w.held?.toList ++ w.queue) = sentTo n run.journal ∧
      (w.held? = none → w.queue = [] → calledBy n run.journal = sentTo n run.journal) := by
  obtain ⟨w, hw, rfl⟩ := h.exists_worker hopen
  have hremembered := h.remembered w (List.mem_append_left _ hw)
  have hpending := h.pending w hw
  refine ⟨w, hw, rfl, hremembered, hremembered ▸ hpending, fun hheld hqueue => ?_⟩
  rw [← hpending, Worker.pending, hheld, hqueue]
  exact (List.append_nil _).symm

/-- When a listener is unregistered, only the event that its worker holds can still reach it. -/
theorem Sound.ended (h : run.Sound) {w : Worker P} (hw : w ∈ run.dispatcher.workers) {s : Step P}
    (hs : s = .remove w.name ∨ s = .shutdown) {rest : List (Step P)}
    (hrest : ∀ s ∈ rest, s.usable) :
    w.number ∈ departures ((run.step s).steps rest).journal ∧
      calledBy w.number ((run.step s).steps rest).journal <+: w.called ++ w.held?.toList := by
  have husable : s.usable := by rcases hs with rfl | rfl <;> rfl
  have hended : w.number ∈ departures (run.step s).journal ∧
      Bounded w.number (w.called ++ w.held?.toList) (run.step s) := by
    rw [h.remembered w (List.mem_append_left _ hw)]
    rcases hs with rfl | rfl
    · rw [h.step_remove]
      exact ⟨(mem_departures_dismiss _).mpr (.inl ⟨w, hw, decide_eq_true rfl, rfl⟩),
        h.bounded_of_dismissed _ hw⟩
    · exact ⟨(mem_departures_dismiss _).mpr (.inl ⟨w, hw, rfl, rfl⟩), h.bounded_of_dismissed _ hw⟩
  obtain ⟨hdeparted, hbounded⟩ := hended.2.steps (h.step husable) hrest hended.1
  exact ⟨hdeparted, hbounded.1⟩

/-- Whatever the order of steps, and however callbacks end:

    * each listener is called with a beginning of what was dispatched while it was registered, and
      with all of it once its queue is drained;
    * when it is unregistered, only the event that its worker holds can still reach it;
    * it would be called with the same if all callbacks ended well;
    * a registration that comes later, under whatever name, hears only what is dispatched later;
    * the names are without duplicates and in the order of registration. -/
theorem delivered_in_order_once (steps : List (Step P)) (h : ∀ s ∈ steps, s.usable) :
    let start : DispatcherRun P := {}
    let run := start.steps steps
    (∀ n, calledBy n run.journal <+: sentTo n run.journal) ∧
      (∀ n, Open run.journal n → ∃ w ∈ run.dispatcher.workers, w.number = n ∧
        w.called = calledBy n run.journal ∧
        w.called ++ (w.held?.toList ++ w.queue) = sentTo n run.journal ∧
        (w.held? = none → w.queue = [] → calledBy n run.journal = sentTo n run.journal)) ∧
      (∀ before s rest, steps = before ++ s :: rest →
        ∀ w ∈ (start.steps before).dispatcher.workers, s = .remove w.name ∨ s = .shutdown →
          ¬Open run.journal w.number ∧
            calledBy w.number run.journal <+: w.called ++ w.held?.toList) ∧
      (∀ steps', steps'.map (·.succeeding) = steps.map (·.succeeding) →
        (start.steps steps').dispatcher = run.dispatcher ∧
          (start.steps steps').journal = run.journal) ∧
      (∀ before rest, steps = before ++ rest →
        ∀ n, (start.steps before).dispatcher.registrations ≤ n →
          (calledBy n run.journal).Sublist (rest.filterMap (·.event?))) ∧
      run.dispatcher.names.Nodup ∧
      run.dispatcher.names =
        ((registrations run.journal).filter fun r => Open run.journal r.1).map Prod.snd ∧
      (registrations run.journal).map Prod.fst = List.range run.dispatcher.registrations := by
  intro start run
  have hsound : run.Sound := sound_start.steps h
  have husable {before rest : List (Step P)} (hsplit : steps = before ++ rest) :
      (∀ s ∈ before, s.usable) ∧ ∀ s ∈ rest, s.usable := by
    subst hsplit
    exact ⟨fun s hs => h s (List.mem_append_left _ hs), fun s hs => h s (List.mem_append_right _ hs)⟩
  refine ⟨hsound.called_begins_sent, fun n hopen => hsound.delivered hopen, ?_,
    fun steps' hsame => start.steps_eq_of_succeeding hsame, ?_, ?_, hsound.names_eq,
    hsound.numbers⟩
  · intro before s rest hsplit w hw hs
    obtain ⟨hbefore, hrest⟩ := husable hsplit
    obtain ⟨hdeparted, hcalled⟩ := (sound_start.steps hbefore).ended hw hs fun s hs =>
      hrest s (List.mem_cons_of_mem _ hs)
    have hrun : run = ((start.steps before).step s).steps rest := by
      rw [show run = start.steps (before ++ s :: rest) from congrArg start.steps hsplit,
        steps_append]
      rfl
    rw [hrun]
    exact ⟨fun hopen => hopen.2 hdeparted, hcalled⟩
  · intro before rest hsplit n hn
    obtain ⟨hbefore, hrest⟩ := husable hsplit
    have hrun : run = (start.steps before).steps rest := by
      rw [← steps_append, ← hsplit]
    rw [hrun]
    exact (sound_start.steps hbefore).called_sublist hrest hn
  · rw [Dispatcher.names, if_neg hsound.not_stuck]
    exact hsound.names

/-- A listener that panics is unregistered while its worker holds the first of two events, and is
    registered again under its name before it is called with that event. -/
def readded : List (Step Nat) :=
  [.add "audit" (.always .panicked), .dispatch ⟨none, .packet 1⟩, .dispatch ⟨none, .packet 2⟩,
    .take 0, .remove "audit", .add "audit" (.always .panicked), .call 0, .finish 0 .panicked,
    .dispatch ⟨none, .packet 3⟩, .take 1, .call 1]

theorem delivered_to_readded :
    (∀ s ∈ readded, s.usable) ∧
      let run := ({} : DispatcherRun Nat).steps readded
      calledBy 0 run.journal <+: sentTo 0 run.journal ∧
        sentTo 0 run.journal = [⟨none, .packet 1⟩, ⟨none, .packet 2⟩] ∧
        calledBy 0 run.journal = [⟨none, .packet 1⟩] ∧
        calledBy 1 run.journal = [⟨none, .packet 3⟩] ∧ run.dispatcher.names = ["audit"] :=
  have husable : ∀ s ∈ readded, s.usable := by decide
  ⟨husable, (delivered_in_order_once readded husable).1 0, by decide, by decide, by decide,
    by decide⟩

end DispatcherRun
end ShardMesh
