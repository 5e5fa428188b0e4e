import ShardMesh.Proofs.Dispatcher.Delivery

/-!
# Settling

`Dispatcher.settle` lets the workers proceed in one of the many orders in which they can. What it
does is a sequence of their steps, and afterwards all listeners have been called with all that was
sent to them.
-/

namespace ShardMesh

variable {P : Type}

/-! ## One worker -/

namespace Worker

variable (w : Worker P) (m : Metrics)

theorem complete_activity : (w.complete m).1.activity = .waiting := by
  unfold complete call finish
  cases hactivity : w.activity <;> simp only [hactivity]

theorem complete_queue : (w.complete m).1.queue = w.queue := by
  unfold complete call finish
  cases hactivity : w.activity <;> simp only [hactivity]

theorem length_queue_take (h : w.activity = .waiting) :
    w.take.queue.length = w.queue.length - 1 := by
  unfold take
  rw [h]
  cases hqueue : w.queue with
  | nil => exact congrArg List.length hqueue
  | cons e rest => rfl

theorem length_queue_take_le : w.take.queue.length ≤ w.queue.length := by
  rcases w.take_cases with heq | ⟨e, rest, -, hqueue, heq⟩
  · exact Nat.le_of_eq (congrArg (·.queue.length) heq)
  · rw [heq, hqueue]
    exact Nat.le_succ _

/-- A worker with enough fuel has nothing left to call its listener with. -/
theorem pending_runFor {fuel : Nat} (hwaiting : w.activity = .waiting)
    (hfuel : w.queue.length ≤ fuel) : (w.runFor fuel m).1.pending = [] := by
  induction fuel generalizing w m with
  | zero =>
    have hqueue : w.queue = [] := List.length_eq_zero_iff.mp (Nat.le_zero.mp hfuel)
    show w.pending = []
    unfold pending held?
    rw [hwaiting, hqueue]
    rfl
  | succ fuel ih =>
    refine ih (w.take.complete m).1 (w.take.complete m).2 (w.take.complete_activity m) ?_
    rw [w.take.complete_queue m, w.length_queue_take hwaiting]
    exact Nat.sub_le_of_le_add hfuel

theorem pending_run : (w.run m).1.pending = [] := by
  refine pending_runFor (w.take.complete m).1 (w.take.complete m).2 (w.take.complete_activity m) ?_
  rw [w.take.complete_queue m]
  exact w.length_queue_take_le

end Worker

/-! ## The steps of workers -/

namespace Dispatcher

/-- A step of a worker, whatever worker it is. -/
def Step.byWorker : Step P → Bool
  | .take _ | .call _ | .finish _ _ => true
  | .add _ _ | .remove _ | .dispatch _ | .shutdown => false

theorem Step.usable_of_byWorker {s : Step P} (h : s.byWorker) : s.usable := by
  cases s <;> first | rfl | cases h

end Dispatcher

namespace DispatcherRun

open Dispatcher (Step)
open Happening

/-- The workers alone bring one run to another. -/
def Reaches (run next : DispatcherRun P) : Prop :=
  ∃ steps : List (Step P), (∀ s ∈ steps, s.byWorker) ∧ run.steps steps = next

variable {run next last : DispatcherRun P}

theorem Reaches.refl (run : DispatcherRun P) : run.Reaches run := ⟨[], nofun, rfl⟩

theorem Reaches.trans (h : run.Reaches next) (h' : next.Reaches last) : run.Reaches last := by
  obtain ⟨steps, hsteps, rfl⟩ := h
  obtain ⟨steps', hsteps', rfl⟩ := h'
  refine ⟨steps ++ steps', fun s hs => ?_, steps_append run steps steps'⟩
  exact (List.mem_append.mp hs).elim (hsteps s) (hsteps' s)

theorem reaches_step (run : DispatcherRun P) {s : Step P} (h : s.byWorker) :
    run.Reaches (run.step s) :=
  ⟨[s], fun _ hs => List.mem_singleton.mp hs ▸ h, rfl⟩

theorem Reaches.sound (h : run.Reaches next) (hs : run.Sound) : next.Sound := by
  obtain ⟨steps, hsteps, rfl⟩ := h
  exact hs.steps fun s hmem => Step.usable_of_byWorker (hsteps s hmem)

/-- Workers neither send anything nor end registrations. -/
theorem Sound.step_byWorker (h : run.Sound) {s : Step P} (hs : s.byWorker) :
    registrations (run.step s).journal = registrations run.journal ∧
      departures (run.step s).journal = departures run.journal ∧
      ∀ n, sentTo n (run.step s).journal = sentTo n run.journal := by
  cases s with
  | call number =>
    have hproceeds := h.proceeds_call number
    exact ⟨hproceeds.registered, hproceeds.departed, hproceeds.sent⟩
  | take number => exact ⟨rfl, rfl, fun _ => rfl⟩
  | finish number reaction => exact ⟨rfl, rfl, fun _ => rfl⟩
  | _ => cases hs

theorem Reaches.past (h : run.Reaches next) (hs : run.Sound) :
    registrations next.journal = registrations run.journal ∧
      departures next.journal = departures run.journal ∧
      ∀ n, sentTo n next.journal = sentTo n run.journal := by
  obtain ⟨steps, hsteps, rfl⟩ := h
  induction steps generalizing run with
  | nil => exact ⟨rfl, rfl, fun _ => rfl⟩
  | cons s rest ih =>
    have hfirst := hsteps s List.mem_cons_self
    obtain ⟨hregistered, hdeparted, hsent⟩ := hs.step_byWorker hfirst
    obtain ⟨hregistered', hdeparted', hsent'⟩ :=
      ih (hs.step (Step.usable_of_byWorker hfirst)) fun s hmem =>
        hsteps s (List.mem_cons_of_mem _ hmem)
    exact ⟨hregistered'.trans hregistered, hdeparted'.trans hdeparted,
      fun n => (hsent' n).trans (hsent n)⟩

/-- The change of a worker leaves the other workers as they are. -/
theorem map_change_of_ne {number : Nat} {f : Worker P → Worker P} {workers : List (Worker P)}
    (h : ∀ v ∈ workers, v.number ≠ number) :
    workers.map (fun v => if v.number = number then f v else v) = workers :=
  (List.map_congr_left fun v hv => if_neg (h v hv)).trans (List.map_id' workers)

/-- What is counted when a callback ends. -/
theorem Sound.metrics_finish (h : run.Sound) {w : Worker P}
    (hw : w ∈ run.dispatcher.workers ++ run.dispatcher.leaving) (reaction : Reaction) :
    (run.step (.finish w.number reaction)).metrics = (w.finish reaction run.metrics).2 := by
  show (Option.map _ (run.dispatcher.worker? w.number)).getD _ = _
  rw [h.worker?_of_mem hw]
  rfl

/-! ## Registered workers -/

section Registered

variable {before after : List (Worker P)} {w : Worker P}

theorem Sound.changeWorker_registered (h : run.Sound) (f : Worker P → Worker P)
    (hworkers : run.dispatcher.workers = before ++ w :: after) :
    run.dispatcher.changeWorker w.number f =
      { run.dispatcher with workers := before ++ f w :: after } := by
  have hnodup := h.nodup_numbers
  rw [hworkers, List.append_assoc, List.cons_append, List.map_append, List.map_cons] at hnodup
  have hbefore : ∀ v ∈ before, v.number ≠ w.number := fun v hv =>
    (List.nodup_append.mp hnodup).2.2 _ (List.mem_map_of_mem hv) _ List.mem_cons_self
  have hlater : ∀ v ∈ after ++ run.dispatcher.leaving, v.number ≠ w.number := fun v hv heq =>
    (List.nodup_cons.mp (List.nodup_append.mp hnodup).2.1).1 (heq ▸ List.mem_map_of_mem hv)
  have hafter := map_change_of_ne (f := f) fun v hv => hlater v (List.mem_append_left _ hv)
  have hleaving := map_change_of_ne (f := f) fun v hv => hlater v (List.mem_append_right _ hv)
  unfold Dispatcher.changeWorker
  dsimp only
  rw [hleaving, List.filter_eq_self.mpr h.busy, hworkers, List.map_append, List.map_cons,
    map_change_of_ne hbefore, hafter, if_pos rfl]

/-- A worker that has taken an event comes to the end of it in two steps. -/
theorem Sound.reaches_complete (h : run.Sound)
    (hworkers : run.dispatcher.workers = before ++ w :: after) :
    ∃ next, run.Reaches next ∧
      next.dispatcher = { run.dispatcher with
        workers := before ++ (w.complete run.metrics).1 :: after } ∧
      next.metrics = (w.complete run.metrics).2 := by
  have hcall : (run.step (.call w.number)).dispatcher =
      { run.dispatcher with workers := before ++ w.call :: after } :=
    h.changeWorker_registered _ hworkers
  have hsound : (run.step (.call w.number)).Sound := h.step rfl
  have hcalled : (run.step (.call w.number)).dispatcher.workers = before ++ w.call :: after := by
    rw [hcall]
  have hnumber : w.call.number = w.number := (Worker.keepsIdentity_call w).1
  refine ⟨(run.step (.call w.number)).step (.finish w.number w.call.reaction),
    (reaches_step run rfl).trans (reaches_step _ rfl), ?_, ?_⟩
  · have hfinish := hsound.changeWorker_registered
      (fun v => (v.finish w.call.reaction run.metrics).1) hcalled
    rw [hnumber, hcall] at hfinish
    show Dispatcher.changeWorker _ _ _ = _
    rw [hcall]
    exact hfinish
  · have hmem : w.call ∈ (run.step (.call w.number)).dispatcher.workers := by
      rw [hcalled]
      exact List.mem_append_right _ List.mem_cons_self
    have hfinish := hsound.metrics_finish (List.mem_append_left _ hmem) w.call.reaction
    rw [hnumber] at hfinish
    exact hfinish

theorem Sound.reaches_runFor (h : run.Sound) (fuel : Nat)
    (hworkers : run.dispatcher.workers = before ++ w :: after) :
    ∃ next, run.Reaches next ∧
      next.dispatcher = { run.dispatcher with
        workers := before ++ (w.runFor fuel run.metrics).1 :: after } ∧
      next.metrics = (w.runFor fuel run.metrics).2 := by
  induction fuel generalizing run w with
  | zero =>
    refine ⟨run, .refl run, ?_, rfl⟩
    show _ = { run.dispatcher with workers := before ++ w :: after }
    rw [← hworkers]
  | succ fuel ih =>
    -- a round is three steps: the worker takes an event, calls its listener, and the callback ends
    have htake : (run.step (.take w.number)).dispatcher =
        { run.dispatcher with workers := before ++ w.take :: after } :=
      h.changeWorker_registered _ hworkers
    obtain ⟨next, hreaches, hdispatcher, hmetrics⟩ :=
      Sound.reaches_complete (h.step (s := .take w.number) rfl) (by rw [htake])
    replace hreaches := (reaches_step run rfl).trans hreaches
    replace hmetrics : next.metrics = (w.take.complete run.metrics).2 := hmetrics
    obtain ⟨last, hreaches', hdispatcher', hmetrics'⟩ :=
      ih (hreaches.sound h) (by rw [hdispatcher])
    refine ⟨last, hreaches.trans hreaches', ?_, ?_⟩
    · rw [hdispatcher', hdispatcher, htake, hmetrics]
      rfl
    · rw [hmetrics', hmetrics]
      rfl

/-- The workers run one after the other. -/
theorem Sound.reaches_runs (h : run.Sound) {ran rest : List (Worker P)}
    (hworkers : run.dispatcher.workers = ran.reverse ++ rest) :
    let result := rest.foldl (fun (x : List (Worker P) × Metrics) w =>
      ((w.run x.2).1 :: x.1, (w.run x.2).2)) (ran, run.metrics)
    ∃ next, run.Reaches next ∧
      next.dispatcher = { run.dispatcher with workers := result.1.reverse } ∧
      next.metrics = result.2 ∧ ∀ w ∈ result.1, w ∈ ran ∨ w.pending = [] := by
  induction rest generalizing run ran with
  | nil =>
    refine ⟨run, .refl run, ?_, rfl, fun w hw => .inl hw⟩
    show _ = { run.dispatcher with workers := ran.reverse }
    rw [← List.append_nil ran.reverse, ← hworkers]
  | cons w rest ih =>
    obtain ⟨next, hreaches, hdispatcher, hmetrics⟩ := h.reaches_runFor (w.queue.length + 1) hworkers
    have hnext : next.dispatcher.workers = ((w.run run.metrics).1 :: ran).reverse ++ rest := by
      rw [hdispatcher, List.reverse_cons, List.append_assoc]
      rfl
    obtain ⟨last, hreaches', hdispatcher', hmetrics', hdone⟩ := ih (hreaches.sound h) hnext
    rw [hmetrics] at hdispatcher' hmetrics' hdone
    refine ⟨last, hreaches.trans hreaches', ?_, hmetrics', fun v hv => ?_⟩
    · rw [hdispatcher', hdispatcher]
      rfl
    · rcases hdone v hv with hmem | hpending
      · rcases List.mem_cons.mp hmem with rfl | hmem
        · exact .inr (w.pending_run run.metrics)
        · exact .inl hmem
      · exact .inr hpending

end Registered

/-! ## Leaving workers -/

section Leaving

variable {rest : List (Worker P)} {w : Worker P}

theorem Sound.changeWorker_leaving (h : run.Sound) (f : Worker P → Worker P)
    (hleaving : run.dispatcher.leaving = w :: rest) :
    run.dispatcher.changeWorker w.number f =
      { run.dispatcher with leaving := if (f w).busy then f w :: rest else rest } := by
  have hnodup := h.nodup_numbers
  rw [hleaving, List.map_append, List.map_cons, List.nodup_append, List.nodup_cons] at hnodup
  obtain ⟨-, ⟨hnew, -⟩, hapart⟩ := hnodup
  have hworkers := map_change_of_ne (f := f) fun v hv =>
    hapart v.number (List.mem_map_of_mem hv) w.number List.mem_cons_self
  have hrest := map_change_of_ne (f := f) fun v hv (heq : v.number = w.number) =>
    hnew (heq ▸ List.mem_map_of_mem hv)
  have hbusy : ∀ v ∈ rest, v.busy := fun v hv =>
    h.busy v (hleaving ▸ List.mem_cons_of_mem _ hv)
  unfold Dispatcher.changeWorker
  dsimp only
  rw [hworkers, hleaving, List.map_cons, hrest, if_pos rfl, List.filter_cons,
    List.filter_eq_self.mpr hbusy]

/-- A worker without registration is gone after its last event. -/
theorem Sound.reaches_departure (h : run.Sound) (hleaving : run.dispatcher.leaving = w :: rest) :
    ∃ next, run.Reaches next ∧
      next.dispatcher = { run.dispatcher with leaving := rest } ∧
      next.metrics = (w.complete run.metrics).2 := by
  have hbusy : w.call.busy := by
    have hbefore := h.busy w (hleaving ▸ List.mem_cons_self)
    unfold Worker.busy at hbefore ⊢
    unfold Worker.call
    cases hactivity : w.activity with
    | waiting => rw [hactivity] at hbefore; cases hbefore
    | holding e => rfl
    | calling e => rw [hactivity]
  have hidle (reaction : Reaction) (m : Metrics) : (w.call.finish reaction m).1.busy = false := by
    have hfinished := w.complete_activity m
    unfold Worker.complete at hfinished
    unfold Worker.busy
    rw [w.call.finish_fst_congr reaction w.call.reaction m m, hfinished]
  have hcall : (run.step (.call w.number)).dispatcher =
      { run.dispatcher with leaving := w.call :: rest } := by
    show Dispatcher.changeWorker _ _ _ = _
    rw [h.changeWorker_leaving _ hleaving, if_pos hbusy]
  have hsound : (run.step (.call w.number)).Sound := h.step rfl
  have hcalled : (run.step (.call w.number)).dispatcher.leaving = w.call :: rest := by
    rw [hcall]
  have hnumber : w.call.number = w.number := (Worker.keepsIdentity_call w).1
  refine ⟨(run.step (.call w.number)).step (.finish w.number w.call.reaction),
    (reaches_step run rfl).trans (reaches_step _ rfl), ?_, ?_⟩
  · have hfinish := hsound.changeWorker_leaving
      (fun v => (v.finish w.call.reaction run.metrics).1) hcalled
    rw [hnumber, hcall, hidle] at hfinish
    show Dispatcher.changeWorker _ _ _ = _
    rw [hcall]
    exact hfinish
  · have hmem : w.call ∈ (run.step (.call w.number)).dispatcher.leaving :=
      hcalled ▸ List.mem_cons_self
    have hfinish := hsound.metrics_finish (List.mem_append_right _ hmem) w.call.reaction
    rw [hnumber] at hfinish
    exact hfinish

theorem Sound.reaches_departures (h : run.Sound) :
    ∃ next, run.Reaches next ∧
      next.dispatcher = { run.dispatcher with leaving := [] } ∧
      next.metrics =
        run.dispatcher.leaving.foldl (fun m w => (w.complete m).2) run.metrics := by
  generalize hleaving : run.dispatcher.leaving = leaving
  induction leaving generalizing run with
  | nil => exact ⟨run, .refl run, by rw [← hleaving], rfl⟩
  | cons w rest ih =>
    obtain ⟨next, hreaches, hdispatcher, hmetrics⟩ := h.reaches_departure hleaving
    obtain ⟨last, hreaches', hdispatcher', hmetrics'⟩ :=
      ih (hreaches.sound h) (by rw [hdispatcher])
    refine ⟨last, hreaches.trans hreaches', ?_, ?_⟩
    · rw [hdispatcher', hdispatcher]
    · rw [hmetrics', hmetrics]
      rfl

end Leaving

/-- To settle is to make steps of the workers, after which every listener has been called with all
    that was sent to it. -/
theorem Sound.settles (h : run.Sound) :
    ∃ next, run.Reaches next ∧
      (next.dispatcher, next.metrics) = run.dispatcher.settle run.metrics ∧
      ∀ n, Open run.journal n → calledBy n next.journal = sentTo n run.journal := by
  have hworkers : run.dispatcher.workers = [].reverse ++ run.dispatcher.workers := rfl
  obtain ⟨between, hreaches, hdispatcher, hmetrics, hdone⟩ := h.reaches_runs hworkers
  obtain ⟨next, hreaches', hdispatcher', hmetrics'⟩ := (hreaches.sound h).reaches_departures
  have hreached := hreaches.trans hreaches'
  have hsound := hreached.sound h
  refine ⟨next, hreached, ?_, fun n hopen => ?_⟩
  · rw [hdispatcher', hmetrics', hdispatcher, hmetrics]
    rfl
  · obtain ⟨hregistered, hdeparted, hsent⟩ := hreached.past h
    have hstill : Open next.journal n := by
      unfold Open
      rw [hregistered, hdeparted]
      exact hopen
    obtain ⟨w, hw, rfl⟩ := hsound.exists_worker hstill
    have hpending : w.pending = [] := by
      rw [hdispatcher', hdispatcher] at hw
      exact (hdone w (List.mem_reverse.mp hw)).resolve_left nofun
    rw [← hsent, ← hsound.pending w hw, hpending, List.append_nil]

end DispatcherRun
end ShardMesh
