import ShardMesh.Proofs.Dispatcher.Journal

/-!
# What every step of a dispatcher keeps

What was dispatched while a registration was open is the same sequence as what its listener was
called with, followed by what its worker has taken and by what waits in its queue. When the
registration ends, what waits is dropped, and only the event that was taken can still reach the
listener.

`Sound` is what every step keeps, and `Bounded` is what is left of a registration that has ended.
-/

namespace ShardMesh

variable {P : Type}

namespace DispatcherRun

open Dispatcher (Step)
open Happening

/-! ## What every step keeps -/

/-- What is left of a registration that has ended: all that its listener was called with, and all
    that it can still be called with, begins a given sequence. -/
def Bounded (number : Nat) (bound : List (ConnectionEvent P)) (run : DispatcherRun P) : Prop :=
  calledBy number run.journal <+: bound ∧
    ∀ w ∈ run.dispatcher.leaving, w.number = number →
      calledBy number run.journal ++ w.pending <+: bound

/-- What holds of a dispatcher whatever happened to it. -/
structure Sound (run : DispatcherRun P) : Prop where
  unstuck : run.dispatcher.stuck = false
  /-- Registrations are counted in order. -/
  numbers : (registrations run.journal).map Prod.fst = List.range run.dispatcher.registrations
  departed : ∀ n ∈ departures run.journal, n < run.dispatcher.registrations
  /-- There is one worker for each registration that has not ended. -/
  present : run.dispatcher.workers.map (fun w => (w.number, w.name)) =
    (registrations run.journal).filter fun r => r.1 ∉ departures run.journal
  names : (run.dispatcher.workers.map (·.name)).Nodup
  leaving : ∀ w ∈ run.dispatcher.leaving, w.number ∈ departures run.journal
  distinct : (run.dispatcher.leaving.map (·.number)).Nodup
  busy : ∀ w ∈ run.dispatcher.leaving, w.busy
  /-- Nothing that was sent gets lost while a registration is open. -/
  pending : ∀ w ∈ run.dispatcher.workers,
    calledBy w.number run.journal ++ w.pending = sentTo w.number run.journal
  bounded : ∀ n ∈ departures run.journal, Bounded n (sentTo n run.journal) run
  /-- Workers remember what they called their listeners with. -/
  remembered : ∀ w ∈ run.dispatcher.workers ++ run.dispatcher.leaving,
    w.called = calledBy w.number run.journal
  /-- Nobody is called before a registration. -/
  silent : ∀ n, run.dispatcher.registrations ≤ n → calledBy n run.journal = []

theorem sound_start : Sound ({} : DispatcherRun P) where
  unstuck := rfl
  numbers := rfl
  departed := nofun
  present := rfl
  names := List.nodup_nil
  leaving := nofun
  distinct := List.nodup_nil
  busy := nofun
  pending := nofun
  bounded := nofun
  remembered := nofun
  silent := fun _ _ => rfl

variable {run : DispatcherRun P}

/-! ### Workers and their numbers -/

theorem Sound.mem_present (h : run.Sound) {w : Worker P} (hw : w ∈ run.dispatcher.workers) :
    (w.number, w.name) ∈ registrations run.journal ∧ w.number ∉ departures run.journal := by
  have hmem : (w.number, w.name) ∈ run.dispatcher.workers.map fun w => (w.number, w.name) :=
    List.mem_map_of_mem hw
  rw [h.present, List.mem_filter, decide_eq_true_eq] at hmem
  exact hmem

theorem Sound.open_of_mem (h : run.Sound) {w : Worker P} (hw : w ∈ run.dispatcher.workers) :
    Open run.journal w.number := by
  obtain ⟨hregistered, hdeparted⟩ := h.mem_present hw
  exact ⟨List.mem_map_of_mem hregistered, hdeparted⟩

theorem Sound.exists_worker (h : run.Sound) {n : Nat} (hopen : Open run.journal n) :
    ∃ w ∈ run.dispatcher.workers, w.number = n := by
  obtain ⟨hregistered, hdeparted⟩ := hopen
  obtain ⟨⟨n, name⟩, hr, rfl⟩ := List.mem_map.mp hregistered
  have hmem : (n, name) ∈ run.dispatcher.workers.map fun w => (w.number, w.name) := by
    rw [h.present, List.mem_filter, decide_eq_true_eq]
    exact ⟨hr, hdeparted⟩
  obtain ⟨w, hw, heq⟩ := List.mem_map.mp hmem
  exact ⟨w, hw, congrArg Prod.fst heq⟩

theorem Sound.lt_of_mem (h : run.Sound) {w : Worker P} (hw : w ∈ run.dispatcher.workers) :
    w.number < run.dispatcher.registrations := by
  have hmem := (h.open_of_mem hw).1
  rwa [h.numbers, List.mem_range] at hmem

/-- No two workers have the same number, be they registered or leaving. -/
theorem Sound.nodup_numbers (h : run.Sound) :
    ((run.dispatcher.workers ++ run.dispatcher.leaving).map (·.number)).Nodup := by
  have hworkers : run.dispatcher.workers.map (·.number) =
      ((registrations run.journal).filter fun r => r.1 ∉ departures run.journal).map Prod.fst := by
    rw [← h.present, List.map_map]
    rfl
  rw [List.map_append, List.nodup_append]
  refine ⟨?_, h.distinct, fun n hn k hk heq => ?_⟩
  · rw [hworkers]
    refine List.Nodup.sublist (List.filter_sublist.map Prod.fst) ?_
    rw [h.numbers]
    exact List.nodup_range
  · obtain ⟨w, hw, rfl⟩ := List.mem_map.mp hn
    obtain ⟨v, hv, rfl⟩ := List.mem_map.mp hk
    exact (h.mem_present hw).2 (heq ▸ h.leaving v hv)

theorem Sound.worker?_of_mem (h : run.Sound) {w : Worker P}
    (hw : w ∈ run.dispatcher.workers ++ run.dispatcher.leaving) :
    run.dispatcher.worker? w.number = some w := by
  have hnodup := h.nodup_numbers
  unfold Dispatcher.worker?
  generalize run.dispatcher.workers ++ run.dispatcher.leaving = all at hw hnodup
  induction all with
  | nil => cases hw
  | cons v rest ih =>
    rw [List.map_cons, List.nodup_cons] at hnodup
    rcases List.mem_cons.mp hw with rfl | hw
    · exact List.find?_cons_of_pos (by simp)
    · have hne : v.number ≠ w.number := fun heq => hnodup.1 (heq ▸ List.mem_map_of_mem hw)
      rw [List.find?_cons_of_neg (by simpa using hne)]
      exact ih hw hnodup.2

theorem Sound.eq_of_number_eq (h : run.Sound) {v w : Worker P}
    (hv : v ∈ run.dispatcher.workers) (hw : w ∈ run.dispatcher.workers)
    (heq : v.number = w.number) : v = w := by
  have hv := h.worker?_of_mem (List.mem_append_left _ hv)
  rw [heq, h.worker?_of_mem (List.mem_append_left _ hw)] at hv
  exact (Option.some.inj hv).symm

theorem worker?_mem {d : Dispatcher P} {n : Nat} {w : Worker P} (h : d.worker? n = some w) :
    w ∈ d.workers ++ d.leaving ∧ w.number = n :=
  ⟨List.mem_of_find?_eq_some h, by simpa using List.find?_some h⟩

/-! ### Workers proceed -/

/-- The journal of a run in which one worker proceeds: nothing is written down but with what its
    listener is called, and that is what it has not to be called with any more. -/
structure Proceeds (run : DispatcherRun P) (number : Nat) (f : Worker P → Worker P)
    (journal : List (Happening P)) : Prop where
  keeps : Worker.KeepsIdentity f
  registered : registrations journal = registrations run.journal
  departed : departures journal = departures run.journal
  sent : ∀ n, sentTo n journal = sentTo n run.journal
  others : ∀ n, n ≠ number → calledBy n journal = calledBy n run.journal
  called : ∀ w ∈ run.dispatcher.workers ++ run.dispatcher.leaving, w.number = number →
    calledBy number journal ++ (f w).pending = calledBy number run.journal ++ w.pending
  recorded : ∀ w ∈ run.dispatcher.workers ++ run.dispatcher.leaving, w.number = number →
    w.called = calledBy number run.journal → (f w).called = calledBy number journal
  absent : (∀ w ∈ run.dispatcher.workers ++ run.dispatcher.leaving, w.number ≠ number) →
    calledBy number journal = calledBy number run.journal

/-- A worker that does nothing to what its listener has still to be called with. -/
theorem proceeds_of_pending {f : Worker P → Worker P} (hkeeps : Worker.KeepsIdentity f)
    (hpending : ∀ w, (f w).pending = w.pending) (hcalled : ∀ w, (f w).called = w.called)
    (number : Nat) :
    Proceeds run number f run.journal where
  keeps := hkeeps
  registered := rfl
  departed := rfl
  sent := fun _ => rfl
  others := fun _ _ => rfl
  called := fun w _ _ => by rw [hpending]
  recorded := fun w _ _ hw => (hcalled w).trans hw
  absent := fun _ => rfl

theorem Sound.proceeds_call (h : run.Sound) (number : Nat) :
    Proceeds run number (·.call) (run.step (.call number)).journal := by
  obtain ⟨hregistrations, hdepartures, hsent, hcalled, hothers⟩ := called_append
    ((run.dispatcher.worker? number).bind (·.held?)) number run.journal
  refine ⟨Worker.keepsIdentity_call, hregistrations, hdepartures, hsent, hothers, ?_, ?_, ?_⟩
  · rintro w hw rfl
    show calledBy w.number (_ ++ run.journal) ++ _ = _
    rw [hcalled, h.worker?_of_mem hw, List.append_assoc]
    exact congrArg (calledBy w.number run.journal ++ ·) w.pending_call
  · rintro w hw rfl hremembered
    show _ = calledBy w.number (_ ++ run.journal)
    rw [hcalled, h.worker?_of_mem hw, w.called_call, hremembered]
    rfl
  · intro habsent
    have hnone : run.dispatcher.worker? number = none := by
      cases hfound : run.dispatcher.worker? number with
      | none => rfl
      | some w =>
        obtain ⟨hw, hnumber⟩ := worker?_mem hfound
        exact absurd hnumber (habsent w hw)
    show calledBy number (_ ++ run.journal) = _
    rw [hcalled, hnone]
    exact List.append_nil _

section Proceeds

variable {number : Nat} {f : Worker P → Worker P} {journal : List (Happening P)}

/-- What was called and what has still to be called stay together. -/
theorem Proceeds.pending (h : Proceeds run number f journal) {w : Worker P}
    (hw : w ∈ run.dispatcher.workers ++ run.dispatcher.leaving) :
    calledBy w.number journal ++ (if w.number = number then f w else w).pending =
      calledBy w.number run.journal ++ w.pending := by
  by_cases hnumber : w.number = number
  · rw [if_pos hnumber]
    subst hnumber
    exact h.called w hw rfl
  · rw [if_neg hnumber, h.others w.number hnumber]

/-- A worker that remembered everything still does. -/
theorem Proceeds.called_eq (h : Proceeds run number f journal) {w : Worker P}
    (hw : w ∈ run.dispatcher.workers ++ run.dispatcher.leaving)
    (hremembered : w.called = calledBy w.number run.journal) :
    (if w.number = number then f w else w).called = calledBy w.number journal := by
  by_cases hnumber : w.number = number
  · rw [if_pos hnumber]
    subst hnumber
    exact h.recorded w hw rfl hremembered
  · rw [if_neg hnumber, h.others w.number hnumber]
    exact hremembered

theorem Proceeds.number_eq (h : Proceeds run number f journal) (w : Worker P) :
    (if w.number = number then f w else w).number = w.number := by
  split
  · exact (h.keeps w).1
  · rfl

theorem Proceeds.name_eq (h : Proceeds run number f journal) (w : Worker P) :
    (if w.number = number then f w else w).name = w.name := by
  split
  · exact (h.keeps w).2
  · rfl

/-- A leaving worker after the change is one from before it. -/
theorem mem_leaving_changeWorker {d : Dispatcher P} {v : Worker P}
    (hv : v ∈ (d.changeWorker number f).leaving) :
    ∃ w ∈ d.leaving, v = if w.number = number then f w else w := by
  obtain ⟨w, hw, rfl⟩ := List.mem_map.mp (List.mem_filter.mp hv).1
  exact ⟨w, hw, rfl⟩

theorem mem_changeWorker {d : Dispatcher P} {v : Worker P}
    (hv : v ∈ (d.changeWorker number f).workers ++ (d.changeWorker number f).leaving) :
    ∃ w ∈ d.workers ++ d.leaving, v = if w.number = number then f w else w := by
  rcases List.mem_append.mp hv with hv | hv
  · obtain ⟨w, hw, rfl⟩ := List.mem_map.mp hv
    exact ⟨w, List.mem_append_left _ hw, rfl⟩
  · obtain ⟨w, hw, heq⟩ := mem_leaving_changeWorker hv
    exact ⟨w, List.mem_append_right _ hw, heq⟩

theorem Proceeds.bounded (h : Proceeds run number f journal) (hs : run.Sound) {n : Nat}
    (hn : n ∈ departures run.journal) {bound : List (ConnectionEvent P)}
    (hbounded : Bounded n bound run) (m : Metrics) :
    Bounded n bound ⟨run.dispatcher.changeWorker number f, m, journal⟩ := by
  obtain ⟨hcalled, hleaving⟩ := hbounded
  have hstill : ∀ v ∈ (run.dispatcher.changeWorker number f).leaving, v.number = n →
      calledBy n journal ++ v.pending <+: bound := by
    intro v hv hvn
    obtain ⟨w, hw, rfl⟩ := mem_leaving_changeWorker hv
    rw [h.number_eq] at hvn
    subst hvn
    rw [h.pending (List.mem_append_right _ hw)]
    exact hleaving w hw rfl
  refine ⟨?_, hstill⟩
  by_cases hpresent : ∃ w ∈ run.dispatcher.leaving, w.number = n
  · obtain ⟨w, hw, rfl⟩ := hpresent
    have hafter := hleaving w hw rfl
    rw [← h.pending (List.mem_append_right _ hw)] at hafter
    exact (List.prefix_append _ _).trans hafter
  · -- nobody is left who could be called
    have habsent : ∀ w ∈ run.dispatcher.workers ++ run.dispatcher.leaving, w.number ≠ n := by
      intro w hw heq
      rcases List.mem_append.mp hw with hw | hw
      · exact (hs.mem_present hw).2 (heq ▸ hn)
      · exact hpresent ⟨w, hw, heq⟩
    by_cases hnumber : n = number
    · subst hnumber
      rw [h.absent habsent]
      exact hcalled
    · rw [h.others n hnumber]
      exact hcalled

/-- A worker that proceeds keeps a run sound. -/
theorem Proceeds.sound (h : Proceeds run number f journal) (hs : run.Sound) (m : Metrics) :
    Sound ⟨run.dispatcher.changeWorker number f, m, journal⟩ := by
  have hidentities : (run.dispatcher.changeWorker number f).workers.map
      (fun w => (w.number, w.name)) = run.dispatcher.workers.map fun w => (w.number, w.name) := by
    show List.map _ (List.map _ _) = _
    rw [List.map_map]
    refine List.map_congr_left fun w _ => ?_
    exact Prod.ext (h.number_eq w) (h.name_eq w)
  have hnames (d : Dispatcher P) :
      d.workers.map (·.name) = (d.workers.map fun w => (w.number, w.name)).map Prod.snd := by
    rw [List.map_map]
    rfl
  refine
    { unstuck := hs.unstuck
      numbers := by rw [h.registered]; exact hs.numbers
      departed := by rw [h.departed]; exact hs.departed
      present := by rw [hidentities, h.registered, h.departed]; exact hs.present
      names := by rw [hnames, hidentities, ← hnames]; exact hs.names
      busy := fun v hv => (List.mem_filter.mp hv).2
      leaving := ?_, distinct := ?_, pending := ?_, bounded := ?_, remembered := ?_, silent := ?_ }
  · intro v hv
    obtain ⟨w, hw, rfl⟩ := mem_leaving_changeWorker hv
    rw [h.number_eq, h.departed]
    exact hs.leaving w hw
  · refine List.Nodup.sublist (List.filter_sublist.map _) ?_
    rw [List.map_map]
    exact (List.map_congr_left fun w _ => h.number_eq w) ▸ hs.distinct
  · intro v hv
    obtain ⟨w, hw, rfl⟩ := List.mem_map.mp hv
    rw [h.number_eq, h.sent, h.pending (List.mem_append_left _ hw)]
    exact hs.pending w hw
  · intro n hn
    rw [h.departed] at hn
    rw [h.sent]
    exact h.bounded hs hn (hs.bounded n hn) m
  · intro v hv
    obtain ⟨w, hw, rfl⟩ := mem_changeWorker hv
    rw [h.number_eq]
    exact h.called_eq hw (hs.remembered w hw)
  · intro n hn
    have habsent : ∀ w ∈ run.dispatcher.workers ++ run.dispatcher.leaving, w.number ≠ n := by
      intro w hw heq
      have hlt : w.number < run.dispatcher.registrations := by
        rcases List.mem_append.mp hw with hw | hw
        · exact hs.lt_of_mem hw
        · exact hs.departed _ (hs.leaving w hw)
      exact absurd (heq ▸ hlt) (Nat.not_lt.mpr hn)
    by_cases hnumber : n = number
    · subst hnumber
      rw [h.absent habsent]
      exact hs.silent n hn
    · rw [h.others n hnumber]
      exact hs.silent n hn

end Proceeds

/-! ### Registrations come and go, and events are dispatched -/

theorem Sound.not_stuck (h : run.Sound) : ¬run.dispatcher.stuck = true :=
  Bool.eq_false_iff.mp h.unstuck

theorem Sound.step_add (h : run.Sound) {name : String} (listener : Listener P)
    (hname : isThreadName name) :
    run.step (.add name listener) = run ∨ name ∉ run.dispatcher.workers.map (·.name) ∧
      run.step (.add name listener) =
        { run with
          dispatcher := { run.dispatcher with
            workers := run.dispatcher.workers ++
              [{ number := run.dispatcher.registrations, name, listener }]
            registrations := run.dispatcher.registrations + 1 }
          journal := .registered run.dispatcher.registrations name :: run.journal } := by
  by_cases htaken : run.dispatcher.workers.any (·.name = name)
  · have hadd : run.dispatcher.add name listener =
        (.error (.duplicateListener name), run.dispatcher) := by
      rw [Dispatcher.add, if_neg h.not_stuck, if_pos htaken]
    left
    rw [step, hadd]
  · right
    refine ⟨fun hmem => htaken ?_, ?_⟩
    · obtain ⟨w, hw, heq⟩ := List.mem_map.mp hmem
      exact List.any_eq_true.mpr ⟨w, hw, decide_eq_true heq⟩
    · rw [step, Dispatcher.add, if_neg h.not_stuck, if_neg htaken, hname]
      rfl

theorem Sound.step_dispatch (h : run.Sound) (event : ConnectionEvent P) :
    run.step (.dispatch event) =
      { run with
        dispatcher := { run.dispatcher with
          workers := run.dispatcher.workers.map fun w => { w with queue := w.queue ++ [event] } }
        journal := .dispatched event :: run.journal } := by
  rw [step, Dispatcher.dispatch, if_neg h.not_stuck]

/-- To remove a listener and to shut down are to dismiss workers. -/
theorem Sound.step_remove (h : run.Sound) (name : String) :
    run.step (.remove name) =
      run.unregister (·.name = name) (run.dispatcher.dismiss (·.name = name)) := by
  rw [step, Dispatcher.remove, if_neg h.not_stuck]

/-- A worker begins with nothing to do, and its registration with nothing sent. -/
theorem Sound.register (h : run.Sound) {name : String} (listener : Listener P)
    (hfree : name ∉ run.dispatcher.workers.map (·.name)) (m : Metrics) :
    Sound ⟨{ run.dispatcher with
        workers := run.dispatcher.workers ++
          [{ number := run.dispatcher.registrations, name, listener }]
        registrations := run.dispatcher.registrations + 1 }, m,
      .registered run.dispatcher.registrations name :: run.journal⟩ := by
  have hnumber : run.dispatcher.registrations ∉ departures run.journal := fun hmem =>
    Nat.lt_irrefl _ (h.departed _ hmem)
  refine
    { unstuck := h.unstuck, numbers := ?_, departed := ?_, present := ?_, names := ?_
      leaving := h.leaving, distinct := h.distinct, busy := h.busy, pending := ?_
      bounded := h.bounded, remembered := ?_, silent := ?_ }
  · rw [registrations, List.map_append, h.numbers, List.range_succ]
    rfl
  · intro n hn
    exact Nat.lt_succ_of_lt (h.departed n hn)
  · rw [registrations, List.map_append, List.filter_append, h.present]
    have hnew : [(run.dispatcher.registrations, name)].filter
        (fun r => r.1 ∉ departures run.journal) = [(run.dispatcher.registrations, name)] :=
      List.filter_cons_of_pos (decide_eq_true hnumber)
    exact congrArg (_ ++ ·) hnew.symm
  · rw [List.map_append, List.nodup_append]
    refine ⟨h.names, List.pairwise_singleton _ _, fun taken htaken new hnew heq => ?_⟩
    obtain rfl := List.mem_singleton.mp hnew
    exact hfree (heq ▸ htaken)
  · intro w hw
    rcases List.mem_append.mp hw with hw | hw
    · exact h.pending w hw
    · obtain rfl := List.mem_singleton.mp hw
      have hnew : run.dispatcher.registrations ∉ (registrations run.journal).map Prod.fst := by
        rw [h.numbers, List.mem_range]
        exact Nat.lt_irrefl _
      show calledBy _ run.journal ++ [] = sentTo _ run.journal
      rw [h.silent _ (Nat.le_refl _), sentTo_of_not_registered hnew]
      rfl
  · intro w hw
    rcases List.mem_append.mp hw with hw | hw
    · rcases List.mem_append.mp hw with hw | hw
      · exact h.remembered w (List.mem_append_left _ hw)
      · obtain rfl := List.mem_singleton.mp hw
        exact (h.silent _ (Nat.le_refl _)).symm
    · exact h.remembered w (List.mem_append_right _ hw)
  · intro n hn
    exact h.silent n (Nat.le_of_succ_le hn)

/-- What is dispatched waits for every listener that is registered, and for nobody else. -/
theorem Sound.dispatch (h : run.Sound) (event : ConnectionEvent P) (m : Metrics) :
    Sound ⟨{ run.dispatcher with
        workers := run.dispatcher.workers.map fun w => { w with queue := w.queue ++ [event] } }, m,
      .dispatched event :: run.journal⟩ := by
  have hidentities : (run.dispatcher.workers.map fun w => { w with queue := w.queue ++ [event] }).map
      (fun w => (w.number, w.name)) = run.dispatcher.workers.map fun w => (w.number, w.name) := by
    rw [List.map_map]
    rfl
  refine
    { unstuck := h.unstuck, numbers := h.numbers, departed := h.departed
      present := hidentities.trans h.present, names := ?_
      leaving := h.leaving, distinct := h.distinct, busy := h.busy, pending := ?_
      bounded := ?_, remembered := ?_, silent := h.silent }
  · rw [List.map_map]
    exact h.names
  · intro v hv
    obtain ⟨w, hw, rfl⟩ := List.mem_map.mp hv
    show calledBy w.number run.journal ++ (w.held?.toList ++ (w.queue ++ [event])) = sentTo _ _
    rw [sentTo, if_pos (h.open_of_mem hw), ← h.pending w hw, Worker.pending]
    simp only [List.append_assoc]
  · intro n hn
    have hclosed : ¬Open run.journal n := fun hopen => hopen.2 hn
    rw [sentTo, if_neg hclosed, List.append_nil]
    exact h.bounded n hn
  · intro v hv
    rcases List.mem_append.mp hv with hv | hv
    · obtain ⟨w, hw, rfl⟩ := List.mem_map.mp hv
      exact h.remembered w (List.mem_append_left _ hw)
    · exact h.remembered v (List.mem_append_right _ hv)

section Dismiss

variable (dismissed : Worker P → Bool)

/-- The run in which workers are dismissed. -/
def dismiss (run : DispatcherRun P) : DispatcherRun P :=
  run.unregister dismissed (run.dispatcher.dismiss dismissed)

theorem mem_departures_dismiss {n : Nat} :
    n ∈ departures (run.dismiss dismissed).journal ↔
      (∃ w ∈ run.dispatcher.workers, dismissed w ∧ w.number = n) ∨
        n ∈ departures run.journal := by
  obtain ⟨-, hdepartures, -, -⟩ := unregistered_append
    (run.dispatcher.workers.filter dismissed) run.journal
  show n ∈ departures (_ ++ run.journal) ↔ _
  rw [hdepartures, List.mem_append, List.mem_map]
  simp only [List.mem_filter, and_assoc]

theorem mem_leaving_dismiss {v : Worker P}
    (hv : v ∈ (run.dismiss dismissed).dispatcher.leaving) :
    v ∈ run.dispatcher.leaving ∨
      ∃ w ∈ run.dispatcher.workers, dismissed w ∧ w.busy ∧ v = { w with queue := [] } := by
  rcases List.mem_append.mp hv with hv | hv
  · exact .inl hv
  · obtain ⟨w, hw, rfl⟩ := List.mem_map.mp hv
    obtain ⟨hw, hgone⟩ := List.mem_filter.mp hw
    obtain ⟨hdismissed, hbusy⟩ := Bool.and_eq_true_iff.mp hgone
    exact .inr ⟨w, hw, hdismissed, hbusy, rfl⟩

/-- A registration that has ended before is not concerned. -/
theorem Bounded.dismiss (hs : run.Sound) {n : Nat} (hn : n ∈ departures run.journal)
    {bound : List (ConnectionEvent P)} (h : Bounded n bound run) :
    Bounded n bound (run.dismiss dismissed) := by
  obtain ⟨-, -, -, hcalled⟩ := unregistered_append
    (run.dispatcher.workers.filter dismissed) run.journal
  obtain ⟨hbound, hleaving⟩ := h
  refine ⟨(hcalled n).symm ▸ hbound, fun v hv hvn => ?_⟩
  show calledBy n (_ ++ run.journal) ++ _ <+: _
  rw [hcalled]
  rcases mem_leaving_dismiss dismissed hv with hv | ⟨w, hw, -, -, rfl⟩
  · exact hleaving v hv hvn
  · exact absurd (hvn ▸ hn) (hs.mem_present hw).2

/-- Of all that still waits for a worker that is dismissed, only what it has taken is left. -/
theorem Sound.bounded_of_dismissed (h : run.Sound) {w : Worker P}
    (hw : w ∈ run.dispatcher.workers) :
    Bounded w.number (calledBy w.number run.journal ++ w.held?.toList) (run.dismiss dismissed) := by
  obtain ⟨-, -, -, hcalled⟩ := unregistered_append
    (run.dispatcher.workers.filter dismissed) run.journal
  refine ⟨(hcalled w.number).symm ▸ List.prefix_append _ _, fun v hv hvn => ?_⟩
  show calledBy w.number (_ ++ run.journal) ++ _ <+: _
  rw [hcalled]
  rcases mem_leaving_dismiss dismissed hv with hv | ⟨u, hu, -, -, rfl⟩
  · exact absurd (hvn ▸ h.leaving v hv) (h.mem_present hw).2
  · obtain rfl := h.eq_of_number_eq hu hw hvn
    have hheld : Worker.pending { u with queue := [] } = u.held?.toList := List.append_nil _
    exact hheld ▸ List.prefix_rfl

theorem Bounded.mono {n : Nat} {bound bound' : List (ConnectionEvent P)} (h : Bounded n bound run)
    (hle : bound <+: bound') : Bounded n bound' run :=
  ⟨h.1.trans hle, fun w hw hn => (h.2 w hw hn).trans hle⟩

theorem Sound.dismiss (h : run.Sound) : (run.dismiss dismissed).Sound := by
  obtain ⟨hregistrations, hdepartures, hsent, hcalled⟩ := unregistered_append
    (run.dispatcher.workers.filter dismissed) run.journal
  have hworkers : (run.dismiss dismissed).dispatcher.workers =
      run.dispatcher.workers.filter fun w => !dismissed w := rfl
  refine
    { unstuck := h.unstuck, numbers := ?_, departed := ?_, present := ?_, names := ?_
      leaving := ?_, distinct := ?_, busy := ?_, pending := ?_, bounded := ?_, remembered := ?_
      silent := ?_ }
  · exact (congrArg (List.map Prod.fst) hregistrations).trans h.numbers
  · intro n hn
    rcases (mem_departures_dismiss dismissed).mp hn with ⟨w, hw, -, rfl⟩ | hn
    · exact h.lt_of_mem hw
    · exact h.departed n hn
  · -- no two workers have the same number, so to choose by the worker is to choose by its number
    have hkept (w : Worker P) (hw : w ∈ run.dispatcher.workers) :
        (!dismissed w) = decide (w.number ∉
          (run.dispatcher.workers.filter dismissed).map (·.number)) := by
      rw [Bool.eq_iff_iff, Bool.not_eq_true', decide_eq_true_eq]
      constructor
      · intro hstays hmem
        obtain ⟨v, hv, heq⟩ := List.mem_map.mp hmem
        obtain ⟨hv, hdismissed⟩ := List.mem_filter.mp hv
        rw [h.eq_of_number_eq hv hw heq, hstays] at hdismissed
        cases hdismissed
      · intro hnone
        rw [Bool.eq_false_iff]
        intro hdismissed
        exact hnone (List.mem_map_of_mem (List.mem_filter.mpr ⟨hw, hdismissed⟩))
    show _ = (registrations (_ ++ run.journal)).filter fun r => r.1 ∉ departures (_ ++ run.journal)
    rw [hworkers, List.filter_congr hkept, hregistrations, hdepartures]
    have hboth (r : Nat × String) : decide (r.1 ∉ (run.dispatcher.workers.filter dismissed).map
        (·.number) ++ departures run.journal) =
        (decide (r.1 ∉ (run.dispatcher.workers.filter dismissed).map (·.number)) &&
          decide (r.1 ∉ departures run.journal)) := by
      simp only [List.mem_append, not_or, Bool.decide_and]
    rw [funext hboth, ← List.filter_filter, ← h.present, List.filter_map]
    rfl
  · rw [hworkers]
    exact h.names.sublist (List.filter_sublist.map _)
  · intro v hv
    rw [mem_departures_dismiss]
    rcases mem_leaving_dismiss dismissed hv with hv | ⟨w, hw, hdismissed, -, rfl⟩
    · exact .inr (h.leaving v hv)
    · exact .inl ⟨w, hw, hdismissed, rfl⟩
  · refine List.Nodup.sublist ?_ (List.perm_append_comm.nodup_iff.mp
      ((List.map_append ..).symm ▸ h.nodup_numbers))
    show List.Sublist ((run.dispatcher.leaving ++ _).map _) _
    rw [List.map_append]
    refine List.Sublist.append_left ?_ _
    rw [List.map_map]
    exact List.filter_sublist.map _
  · intro v hv
    rcases mem_leaving_dismiss dismissed hv with hv | ⟨w, hw, -, hbusy, rfl⟩
    · exact h.busy v hv
    · exact hbusy
  · intro w hw
    rw [hworkers, List.mem_filter] at hw
    show calledBy _ (_ ++ run.journal) ++ _ = sentTo _ (_ ++ run.journal)
    rw [hcalled, hsent]
    exact h.pending w hw.1
  · intro n hn
    show Bounded n (sentTo n (_ ++ run.journal)) _
    rw [hsent]
    rcases (mem_departures_dismiss dismissed).mp hn with ⟨w, hw, -, rfl⟩ | hn
    · -- what it has taken is the beginning of all that was still to come
      refine (h.bounded_of_dismissed dismissed hw).mono ?_
      rw [← h.pending w hw, Worker.pending, ← List.append_assoc]
      exact List.prefix_append _ _
    · exact (h.bounded n hn).dismiss dismissed h hn
  · intro v hv
    refine Eq.trans ?_ (hcalled v.number).symm
    rcases List.mem_append.mp hv with hv | hv
    · exact h.remembered v (List.mem_append_left _ (List.mem_filter.mp (hworkers ▸ hv)).1)
    · rcases mem_leaving_dismiss dismissed hv with hv | ⟨w, hw, -, -, rfl⟩
      · exact h.remembered v (List.mem_append_right _ hv)
      · exact h.remembered w (List.mem_append_left _ hw)
  · intro n hn
    exact (hcalled n).trans (h.silent n hn)

end Dismiss

end DispatcherRun
end ShardMesh
