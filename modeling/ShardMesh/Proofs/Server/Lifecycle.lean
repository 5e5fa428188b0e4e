import ShardMesh.Proofs.Server.Calls

/-!
# What listeners hear of a connection

Whatever is done with a server and in whatever order, listeners hear of each connection that it is
active, then of its packets, and then at most once that it has ended, for the reason that was given
first. The counters of connections go along (`each_announced_and_ended_once`).
-/

namespace ShardMesh.Server

variable {C P : Type} [Packet P]

/-! ## Runs -/

theorem after_cons (s : Server C P) (call : Call P) (calls : List (Call P)) :
    s.after (call :: calls) = (s.apply call).after calls := rfl

theorem after_append (s : Server C P) (before after : List (Call P)) :
    s.after (before ++ after) = (s.after before).after after := List.foldl_append

theorem told_append (s : Server C P) (before after : List (Call P)) :
    s.told (before ++ after) = s.told before ++ (s.after before).told after := by
  induction before generalizing s with
  | nil => rfl
  | cons call before ih => rw [List.cons_append, told, told, ih, List.append_assoc, after_cons]

/-- The dispatcher is handed what listeners are told, in this order. -/
theorem dispatcher_after (s : Server C P) (calls : List (Call P)) :
    (s.after calls).dispatcher = s.dispatcher.hear ((s.told calls).map Prod.snd) := by
  induction calls generalizing s with
  | nil => rfl
  | cons call calls ih =>
    rw [after_cons, ih, dispatcher_apply, told, List.map_append]
    exact (List.foldl_append ..).symm

theorem packetOf_after (s : Server C P) (calls : List (Call P)) :
    (s.after calls).hub.packetOf = s.hub.packetOf := by
  induction calls generalizing s with
  | nil => rfl
  | cons call calls ih => rw [after_cons, ih, packetOf_apply]

/-- Of a connection that has ended nothing is heard any more. -/
theorem about_told_of_inactive {s : Server C P} {seat : Seat} {id : Option ConnectionId}
    (h : s.lives[seat]? = some (id, false)) (calls : List (Call P)) :
    about seat (s.told calls) = [] := by
  induction calls generalizing s with
  | nil => rfl
  | cons call calls ih => rw [told, about_append, about_toldBy h, ih (lives_apply h call)]; rfl

/-- What is heard of an active connection is its story. -/
theorem about_told_of_active {s : Server C P} {seat : Seat} {id : Option ConnectionId}
    (h : s.lives[seat]? = some (id, true)) (calls : List (Call P)) :
    about seat (s.told calls) = (story s.hub.packetOf seat calls).map (⟨id, ·⟩) := by
  induction calls generalizing s with
  | nil => rfl
  | cons call calls ih =>
    have hlater := lives_apply h call
    rw [told, about_append, about_toldBy h, if_pos rfl]
    -- if the call ends the session, the story is over; otherwise it goes on with the other calls
    cases hend : call.end? seat with
    | some reason =>
      rw [hend] at hlater
      rw [story_cons_of_end hend, packet?_of_end hend, about_told_of_inactive hlater]
      rfl
    | none =>
      rw [hend] at hlater
      rw [story_cons_of_open hend, ih hlater, packetOf_apply, Option.map_none, Option.toList_none,
        List.append_nil, List.map_append]

/-! ## How many connections there are -/

/-- Whether the connection on a seat is active. -/
def isActive (s : Server C P) (seat : Seat) : Bool := (s.roster.get? seat).any (·.active)

/-- How many of the connections that came in the course of some calls are still active. -/
def stillActive (s : Server C P) (calls : List (Call P)) : Nat :=
  (s.opened calls).countP (s.after calls).isActive

/-- The number of active connections. -/
def activeCount (s : Server C P) : Nat := s.lives.countP (·.2)

/-- How a call changes the connections and the counters: one comes, or one ends, or neither. -/
inductive Change (s s' : Server C P) (opened : List Seat) : Prop where
  | opened (hseat : opened = [s.lives.length])
      (hlives : s'.lives = s.lives ++ [(some (s.lastId + 1), true)])
      (htotal : s'.hub.metrics.connectionsTotal = s.hub.metrics.connectionsTotal + 1)
      (hactive : s'.hub.metrics.connectionsActive = s.hub.metrics.connectionsActive + 1)
  | ended (hseat : opened = []) (seat : Seat) (id : Option ConnectionId)
      (hlife : s.lives[seat]? = some (id, true)) (hlives : s'.lives = s.lives.set seat (id, false))
      (htotal : s'.hub.metrics.connectionsTotal = s.hub.metrics.connectionsTotal)
      (hactive : s'.hub.metrics.connectionsActive =
        s.hub.metrics.connectionClosed.connectionsActive)
  | none (hseat : opened = []) (hlives : s'.lives = s.lives)
      (htotal : s'.hub.metrics.connectionsTotal = s.hub.metrics.connectionsTotal)
      (hactive : s'.hub.metrics.connectionsActive = s.hub.metrics.connectionsActive)

theorem Steady.change {s s' : Server C P} (h : s.Steady s') : s.Change s' [] :=
  .none rfl h.lives h.hub.total h.hub.active

theorem change (s : Server C P) (call : Call P) : s.Change (s.apply call) (s.openedBy call) := by
  rcases s.call_cases call with ⟨transport, rfl⟩ | ⟨seat, bytes, rfl⟩ | ⟨seat, reason, hend⟩ |
    hsilent
  · unfold openedBy
    dsimp only
    cases hready : (s.onReady transport).1 with
    | ok seat =>
      obtain ⟨hseat, registry, hafter⟩ := onReady_of_ok hready
      rw [apply, hafter, hseat]
      exact .opened (by rw [lives, List.length_map]) List.map_append rfl rfl
    | error e => exact (quiet_onReady hready).change
  · exact (s.onFrame_spec seat bytes).1.change
  · obtain ⟨hquiet, hopened, -⟩ := quiet_of_ending hend s
    rw [hopened]
    rcases s.onClosed_cases seat reason with ⟨id, hlife, -, hlives, hhub, -⟩ | ⟨-, -, hsame⟩
    · have htotal : s.hub.metrics.connectionClosed.connectionsTotal =
          s.hub.metrics.connectionsTotal := by
        unfold Metrics.connectionClosed
        split <;> rfl
      refine .ended rfl seat id hlife (hquiet.lives.trans hlives) ?_ ?_
      · rw [hquiet.hub.total, hhub]
        exact htotal
      · rw [hquiet.hub.active, hhub]
        rfl
    · rw [hsame] at hquiet
      exact hquiet.change
  · rw [hsilent.opened]
    exact hsilent.change

theorem range_append_openedBy (s : Server C P) (call : Call P) :
    List.range s.lives.length ++ s.openedBy call = List.range (s.apply call).lives.length := by
  cases s.change call with
  | opened hseat hlives =>
    rw [hseat, hlives, List.length_append, List.length_singleton, List.range_succ]
  | ended hseat seat id hlife hlives => rw [hseat, hlives, List.length_set, List.append_nil]
  | none hseat hlives => rw [hseat, hlives, List.append_nil]

/-- Seats are given in order. -/
theorem range_append_opened (s : Server C P) (calls : List (Call P)) :
    List.range s.lives.length ++ s.opened calls = List.range (s.after calls).lives.length := by
  induction calls generalizing s with
  | nil => exact List.append_nil _
  | cons call calls ih =>
    rw [opened, ← List.append_assoc, range_append_openedBy, ih, after_cons]

/-- Sessions that begin are counted. -/
theorem connectionsTotal_after (s : Server C P) (calls : List (Call P)) :
    (s.after calls).hub.metrics.connectionsTotal =
      s.hub.metrics.connectionsTotal + UInt64.ofNat (s.opened calls).length := by
  induction calls generalizing s with
  | nil => exact (UInt64.add_zero _).symm
  | cons call calls ih =>
    have hstep : (s.apply call).hub.metrics.connectionsTotal =
        s.hub.metrics.connectionsTotal + UInt64.ofNat (s.openedBy call).length := by
      cases s.change call with
      | opened hseat hlives htotal => rw [htotal, hseat]; rfl
      | ended hseat seat id hlife hlives htotal => rw [htotal, hseat]; exact (UInt64.add_zero _).symm
      | none hseat hlives htotal => rw [htotal, hseat]; exact (UInt64.add_zero _).symm
    rw [after_cons, ih, hstep, opened, List.length_append, UInt64.ofNat_add, UInt64.add_assoc]

/-- There are no more connections than calls. -/
theorem stillActive_le (s : Server C P) (calls : List (Call P)) :
    s.stillActive calls ≤ calls.length := by
  have hopened : (s.opened calls).length ≤ calls.length := by
    induction calls generalizing s with
    | nil => exact Nat.le_refl 0
    | cons call calls ih =>
      have hone : (s.openedBy call).length ≤ 1 := by
        cases s.change call with
        | opened hseat => exact Nat.le_of_eq (congrArg List.length hseat)
        | ended hseat => rw [hseat]; exact Nat.zero_le 1
        | none hseat => rw [hseat]; exact Nat.zero_le 1
      have hmore := ih (s.apply call)
      rw [opened, List.length_append, List.length_cons]
      omega
  exact Nat.le_trans List.countP_le_length hopened

/-- Counting along the places of a row is counting along the row. -/
theorem countP_range {α : Type} (row : List α) (p : α → Bool) :
    (List.range row.length).countP (fun i => row[i]?.any p) = row.countP p := by
  induction row with
  | nil => rfl
  | cons a row ih =>
    rw [List.length_cons, List.range_succ_eq_map, List.countP_cons, List.countP_map,
      List.countP_cons, ← ih]
    rfl

/-- Of the connections that a server has, all came in the course of the calls, if there were none
    before. -/
theorem stillActive_eq {s : Server C P} (hnew : s.lives = []) (calls : List (Call P)) :
    s.stillActive calls = (s.after calls).activeCount := by
  have hopened := s.range_append_opened calls
  have hactive : (s.after calls).isActive = fun seat => (s.after calls).lives[seat]?.any (·.2) := by
    funext seat
    rw [getElem?_lives, Option.any_map, isActive]
  rw [hnew, List.length_nil, List.range_zero, List.nil_append] at hopened
  rw [stillActive, hactive, hopened, activeCount]
  exact countP_range _ _

/-- The counter of active connections goes with them, as long as it can hold their number. -/
theorem connectionsActive_apply {s : Server C P} {others : Nat} {call : Call P}
    (h : s.hub.metrics.connectionsActive.toNat = others + s.activeCount)
    (hbound : others + (s.apply call).activeCount < UInt64.size) :
    (s.apply call).hub.metrics.connectionsActive.toNat =
      others + (s.apply call).activeCount := by
  unfold activeCount at h hbound ⊢
  cases s.change call with
  | opened hseat hlives htotal hactive =>
    have hone : [(some (s.lastId + 1), true)].countP (·.2) = 1 := rfl
    rw [hlives, List.countP_append, hone] at hbound ⊢
    rw [hactive, UInt64.toNat_add, h, UInt64.toNat_one, Nat.mod_eq_of_lt (by omega)]
    omega
  | ended hseat seat id hlife hlives htotal hactive =>
    obtain ⟨hseat, hget⟩ := List.getElem?_eq_some_iff.mp hlife
    -- the connection that ends was counted, so the counter does not stop at zero
    have hpos : 0 < s.lives.countP (·.2) :=
      List.countP_pos_iff.mpr ⟨(id, true), List.mem_of_getElem? hlife, rfl⟩
    have hone : 1 ≤ s.hub.metrics.connectionsActive := by
      rw [UInt64.le_iff_toNat_le, h, UInt64.toNat_one]
      omega
    have hcounted : s.hub.metrics.connectionsActive ≠ 0 := by
      rintro hzero
      rw [hzero] at hone
      exact absurd hone (by decide)
    have hclosed : s.hub.metrics.connectionClosed.connectionsActive =
        s.hub.metrics.connectionsActive - 1 := by
      rw [Metrics.connectionClosed, if_neg hcounted]
    rw [hactive, hclosed, UInt64.toNat_sub_of_le _ _ hone, h, hlives, List.countP_set hseat, hget,
      UInt64.toNat_one]
    simp only [if_true, Bool.false_eq_true, if_false]
    omega
  | none hseat hlives htotal hactive => rw [hactive, hlives, h]

theorem connectionsActive_after {s : Server C P} {others : Nat} {calls : List (Call P)}
    (h : s.hub.metrics.connectionsActive.toNat = others + s.activeCount)
    (hbound : ∀ n, others + (s.after (calls.take n)).activeCount < UInt64.size) :
    (s.after calls).hub.metrics.connectionsActive.toNat =
      others + (s.after calls).activeCount := by
  induction calls generalizing s with
  | nil => exact h
  | cons call calls ih => exact ih (connectionsActive_apply h (hbound 1)) fun n => hbound (n + 1)

/-! ## What listeners hear -/

theorem mem_toldBy {s : Server C P} {call : Call P} {notice : Seat × ConnectionEvent P}
    (h : notice ∈ s.toldBy call) : notice.1 < s.lives.length ∨ notice.1 ∈ s.openedBy call := by
  unfold toldBy at h
  split at h
  · unfold openedBy
    dsimp only
    split at h
    · rw [List.mem_singleton.mp h]
      exact .inr (List.mem_singleton.mpr rfl)
    · cases h
  · split at h
    · rename_i hlife _
      rw [List.mem_singleton.mp h]
      exact .inl (List.getElem?_eq_some_iff.mp hlife).1
    · cases h
  · exact .inl (lt_of_mem_toldAtEnd h)
  · exact .inl (lt_of_mem_toldAtEnd h)
  · cases h

/-- Listeners are told of nothing but connections that there are. -/
theorem mem_told {s : Server C P} {calls : List (Call P)} {notice : Seat × ConnectionEvent P}
    (h : notice ∈ s.told calls) : notice.1 ∈ List.range s.lives.length ++ s.opened calls := by
  induction calls generalizing s with
  | nil => cases h
  | cons call calls ih =>
    rw [opened, ← List.append_assoc, range_append_openedBy]
    rcases List.mem_append.mp h with h | h
    · have hseat : notice.1 ∈ List.range s.lives.length ++ s.openedBy call := by
        rw [List.mem_append, List.mem_range]
        exact mem_toldBy h
      rw [range_append_openedBy] at hseat
      exact List.mem_append_left _ hseat
    · exact ih h

/-- Nothing is heard of a connection before it is there. -/
theorem about_told_before (s : Server C P) (calls : List (Call P)) :
    about (s.after calls).lives.length (s.told calls) = [] := by
  rw [about, List.map_eq_nil_iff, List.filter_eq_nil_iff]
  intro notice hmem hseat
  have hlt := mem_told hmem
  rw [range_append_opened, List.mem_range, of_decide_eq_true hseat] at hlt
  exact Nat.lt_irrefl _ hlt

/-- What is heard of a connection is that it is active and then its story. -/
theorem about_told_of_ready {s : Server C P} {before after : List (Call P)} {transport : Transport}
    {seat : Seat} (h : ((s.after before).onReady transport).1 = .ok seat) :
    about seat (s.told (before ++ .ready transport :: after)) =
      (.active :: story s.hub.packetOf seat after).map
        (⟨some ((s.after before).lastId + 1), ·⟩) := by
  obtain ⟨hseat, registry, hafter⟩ := onReady_of_ok h
  have hlength : seat = (s.after before).lives.length := hseat.trans (List.length_map ..).symm
  have hlife : ((s.after before).apply (.ready transport)).lives[seat]? =
      some (some ((s.after before).lastId + 1), true) := by
    rw [getElem?_lives, apply, hafter, hseat]
    simp [Roster.get?, Roster.push]
  have htold : (s.after before).toldBy (.ready transport) =
      [(seat, ⟨some ((s.after before).lastId + 1), .active⟩)] := by
    rw [toldBy, h]
  rw [told_append, told, about_append, about_append, htold, about_singleton, if_pos rfl,
    about_told_of_active hlife, packetOf_apply, packetOf_after, hlength, about_told_before]
  rfl

/-- Whatever is done with a new server, in whatever order and however often, the dispatcher is handed
    what listeners are told; of each connection this is that it is active and then its story, which
    ends with the first reason to end it. No end of a session touches the registry. Sessions that
    begin are counted, modulo the size of the counter, and the counter of active connections goes up
    and down with their number, as long as it can hold it. -/
theorem each_announced_and_ended_once (s : Server C P) (hnew : s.roster.connections = [])
    (calls : List (Call P)) :
    (s.after calls).dispatcher = s.dispatcher.hear ((s.told calls).map Prod.snd) ∧
    (∀ notice ∈ s.told calls, notice.1 ∈ s.opened calls) ∧
    (∀ before transport after seat, calls = before ++ .ready transport :: after →
      ((s.after before).onReady transport).1 = .ok seat →
      about seat (s.told calls) = (.active :: story s.hub.packetOf seat after).map
        (⟨some ((s.after before).lastId + 1), ·⟩)) ∧
    (∀ seat reason, ((s.after calls).onClosed seat reason).registry = (s.after calls).registry ∧
      ((s.after calls).onWriteError seat).registry = (s.after calls).registry) ∧
    (s.after calls).hub.metrics.connectionsTotal =
      s.hub.metrics.connectionsTotal + UInt64.ofNat (s.opened calls).length ∧
    ((∀ n, s.hub.metrics.connectionsActive.toNat + s.stillActive (calls.take n) < UInt64.size) →
      (s.after calls).hub.metrics.connectionsActive.toNat =
        s.hub.metrics.connectionsActive.toNat + s.stillActive calls) := by
  have hlives : s.lives = [] := by rw [lives, hnew, List.map_nil]
  refine ⟨s.dispatcher_after calls, fun notice hmem => ?_, ?_, fun seat reason => ?_,
    s.connectionsTotal_after calls, fun hbound => ?_⟩
  · have hseat := mem_told hmem
    rwa [hlives] at hseat
  · rintro before transport after seat rfl hready
    exact about_told_of_ready hready
  · exact ⟨registry_onClosed .., registry_onClosed ..⟩
  · have hnone : s.activeCount = 0 := by rw [activeCount, hlives, List.countP_nil]
    simp only [stillActive_eq hlives] at hbound ⊢
    exact connectionsActive_after (by rw [hnone, Nat.add_zero]) hbound

/-- A connection on which writing fails is ended by that, and not again by what comes later. -/
theorem announced_and_ended_by_write_error :
    let s : Server Unit Ping :=
      { hub := { codec := .ofRegistry ⟨[⟨0⟩]⟩ }, config := {}, makeContext := fun _ => () }
    let probe : Bytes := [0, 8, 0, 0, 0, 0, 0, 0, 0, 0, 7]
    let later : List (Call Ping) :=
      [.frame 0 probe, .frame 0 [1], .remove 1, .writeError 0, .closed 0 .closed, .frame 0 probe]
    let calls : List (Call Ping) := .ready {} :: later
    s.roster.connections = [] ∧
      about 0 (s.told calls) = [⟨some 1, .active⟩, ⟨some 1, .packet ⟨7⟩⟩, ⟨some 1, .failed⟩] ∧
      (s.after calls).hub.metrics.connectionsTotal = 1 ∧
      (s.after calls).hub.metrics.connectionsActive.toNat = 0 := by
  intro s probe later calls
  obtain ⟨-, -, htold, -, htotal, hactive⟩ := each_announced_and_ended_once s rfl calls
  have hstory : story s.hub.packetOf 0 later = [.packet ⟨7⟩, .failed] := by rfl
  have hready : (s.onReady {}).1 = .ok 0 := by rfl
  refine ⟨rfl, ?_, htotal, ?_⟩
  · rw [htold [] {} later 0 rfl hready, hstory]
    rfl
  · have hfew (n : Nat) :
        s.hub.metrics.connectionsActive.toNat + s.stillActive (calls.take n) < UInt64.size := by
      have hlength : (calls.take n).length ≤ 7 := List.length_take_le' ..
      have hnone : s.hub.metrics.connectionsActive.toNat = 0 := rfl
      rw [hnone, Nat.zero_add]
      exact Nat.lt_of_le_of_lt (Nat.le_trans (s.stillActive_le _) hlength) (by decide)
    have hnone : s.stillActive calls = 0 := by decide +kernel
    rw [hactive hfew, hnone]
    rfl

end ShardMesh.Server
