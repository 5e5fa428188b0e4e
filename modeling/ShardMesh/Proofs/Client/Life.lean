import ShardMesh.Proofs.Client.Calls
import ShardMesh.Proofs.Dispatcher.Delivery

/-!
# The life of a client

A client is new, or its session lives, or its session is over; it goes from one to the next and never
back (`Life`). With that goes what listeners were told, and whether the client says that it is
connected.
-/

namespace ShardMesh.Client

variable {C P : Type}

/-! ## Stages -/

/-- How far the life of a client is that was made with a context: how many sessions have begun, and what
listeners were told. -/
inductive Life (context : C) (c : Client C P) (closeEnded : Bool) : Nat → List (News P) → Prop where
  | new (hcontext : c.context = some context) (hbond : c.bond = none)
      (hconnected : c.connected = false) : Life context c closeEnded 0 []
  | live (packets : List P) (hcontext : c.context = none) (hbond : c.bond = some (context, true))
      (hconnected : c.connected = !closeEnded) :
    Life context c closeEnded 1 (.active :: packets.map .packet)
  | past (packets : List P) (reason : DisconnectReason) (hcontext : c.context = none)
      (hbond : c.bond = some (context, false)) (hconnected : c.connected = false) :
    Life context c closeEnded 1 (.active :: (packets.map .packet ++ [Server.endNews reason]))

variable {context : C} {c c' : Client C P} {closeEnded : Bool} {n : Nat} {news : List (News P)}

theorem Life.keeps (h : Life context c closeEnded n news) (hkeeps : c.Keeps c') :
    Life context c' closeEnded n news := by
  cases h with
  | new hcontext hbond hconnected =>
    exact .new (hkeeps.context.trans hcontext) (hkeeps.bond.trans hbond)
      (hkeeps.connected.trans hconnected)
  | live packets hcontext hbond hconnected =>
    exact .live packets (hkeeps.context.trans hcontext) (hkeeps.bond.trans hbond)
      (hkeeps.connected.trans hconnected)
  | past packets reason hcontext hbond hconnected =>
    exact .past packets reason (hkeeps.context.trans hcontext) (hkeeps.bond.trans hbond)
      (hkeeps.connected.trans hconnected)

/-- The client says that it is connected as long as its session lives and no close has ended. -/
theorem Life.connected_eq (h : Life context c closeEnded n news) :
    c.connected = (c.active && !closeEnded) := by
  rw [active_eq]
  cases h with
  | new hcontext hbond hconnected => rw [hbond, hconnected]; rfl
  | live packets hcontext hbond hconnected => rw [hbond, hconnected]; rfl
  | past packets reason hcontext hbond hconnected => rw [hbond, hconnected]; rfl

/-- There is one session at most. -/
theorem Life.sessions_le (h : Life context c closeEnded n news) : n ≤ 1 := by
  cases h with
  | new => exact Nat.zero_le 1
  | live => exact Nat.le_refl 1
  | past => exact Nat.le_refl 1

/-- The connection is that of the session, and was given the context. -/
theorem Life.connection (h : Life context c closeEnded n news) :
    (n = 1 ↔ ∃ conn, c.connection = some conn) ∧
      ∀ conn, c.connection = some conn → conn.context = context := by
  have hgiven {active : Bool} (hbond : c.bond = some (context, active)) :
      (1 = 1 ↔ ∃ conn, c.connection = some conn) ∧
        ∀ conn, c.connection = some conn → conn.context = context := by
    obtain ⟨conn, hconnection, hpair⟩ := Option.map_eq_some_iff.mp hbond
    refine ⟨iff_of_true rfl ⟨conn, hconnection⟩, fun other hother => ?_⟩
    rw [hconnection] at hother
    cases hother
    exact congrArg Prod.fst hpair
  cases h with
  | new hcontext hbond hconnected =>
    have hnone : c.connection = none := Option.map_eq_none_iff.mp hbond
    rw [hnone]
    exact ⟨iff_of_false nofun nofun, nofun⟩
  | live packets hcontext hbond hconnected => exact hgiven hbond
  | past packets reason hcontext hbond hconnected => exact hgiven hbond

/-- A client that still has its context is new. -/
theorem Life.of_context (h : Life context c closeEnded n news) {given : C}
    (hgiven : c.context = some given) : given = context ∧ n = 0 ∧ news = [] := by
  cases h with
  | new hcontext hbond hconnected => exact ⟨Option.some.inj (hgiven.symm.trans hcontext), rfl, rfl⟩
  | live packets hcontext hbond hconnected =>
    rw [hcontext] at hgiven
    cases hgiven
  | past packets reason hcontext hbond hconnected =>
    rw [hcontext] at hgiven
    cases hgiven

/-- A client with an active connection has a session that lives. -/
theorem Life.of_active (h : Life context c closeEnded n news) (hactive : c.active = true) :
    n = 1 ∧ c.context = none ∧ c.bond = some (context, true) ∧ (c.connected = !closeEnded) ∧
      ∃ packets : List P, news = .active :: packets.map .packet := by
  rw [active_eq] at hactive
  cases h with
  | new hcontext hbond hconnected =>
    rw [hbond] at hactive
    cases hactive
  | live packets hcontext hbond hconnected => exact ⟨rfl, hcontext, hbond, hconnected, packets, rfl⟩
  | past packets reason hcontext hbond hconnected =>
    rw [hbond] at hactive
    cases hactive

/-- A session is refused when there was one, or after a close has begun. -/
theorem Life.refuses_iff (h : Life context c closeEnded n news) (transport : Transport) :
    (∃ e, (c.onReady transport).1 = .error e) ↔ n = 1 ∨ c.closed = true := by
  rcases c.onReady_cases transport with
    ⟨given, hclosed, hcontext, hresult, -⟩ | ⟨hwhy, hrefused, -⟩
  · obtain ⟨-, rfl, -⟩ := h.of_context hcontext
    rw [hresult, hclosed]
    exact iff_of_false nofun nofun
  · refine iff_of_true hrefused ?_
    cases h with
    | new hcontext hbond hconnected =>
      rcases hwhy with hclosed | hnone
      · exact .inr hclosed
      · rw [hcontext] at hnone
        cases hnone
    | live => exact .inl rfl
    | past => exact .inl rfl

/-- Listeners hear nothing of a client without a session; otherwise they hear that it is active, then of
packets, and of one end at most. -/
theorem Life.heard (h : Life context c closeEnded n news) :
    (n = 0 → news = []) ∧
      (n = 1 → ∃ (packets : List P) (ends : List (News P)),
        news = .active :: (packets.map .packet ++ ends) ∧ ends.length ≤ 1 ∧
          ∀ e ∈ ends, e = .inactive ∨ e = .failed) := by
  cases h with
  | new => exact ⟨fun _ => rfl, nofun⟩
  | live packets =>
    refine ⟨nofun, fun _ => ⟨packets, [], ?_, Nat.zero_le 1, nofun⟩⟩
    rw [List.append_nil]
  | past packets reason =>
    refine ⟨nofun, fun _ => ⟨packets, _, rfl, Nat.le_refl 1, fun e he => ?_⟩⟩
    rw [List.mem_singleton.mp he]
    unfold Server.endNews
    split
    · exact .inl rfl
    · exact .inr rfl

/-- As long as the session lives, packets may be told. -/
theorem Life.packet (h : Life context c closeEnded n news) (hactive : c.active = true) (packet : P) :
    Life context c closeEnded n (news ++ [.packet packet]) := by
  obtain ⟨rfl, hcontext, hbond, hconnected, packets, rfl⟩ := h.of_active hactive
  have hnews : (.active :: packets.map .packet ++ [.packet packet] : List (News P)) =
      .active :: (packets ++ [packet]).map .packet := by
    rw [List.map_append, List.cons_append]
    rfl
  rw [hnews]
  exact .live _ hcontext hbond hconnected

theorem Life.closed (h : Life context c closeEnded n news) (reason : DisconnectReason) :
    Life context (c.onClosed reason) closeEnded n (news ++ c.toldAtEnd reason) := by
  unfold toldAtEnd
  rcases c.onClosed_cases reason with ⟨conn, hconnection, hactive, hafter⟩ | ⟨hactive, hafter⟩
  · have hlives := active_of_connection hconnection hactive
    obtain ⟨rfl, hcontext, hbond, -, packets, rfl⟩ := h.of_active hlives
    have hgiven : conn.context = context := by
      unfold bond at hbond
      rw [hconnection] at hbond
      exact congrArg Prod.fst (Option.some.inj hbond)
    rw [if_pos hlives, hafter]
    exact .past packets reason hcontext (congrArg (fun given => some (given, false)) hgiven) rfl
  · rw [if_neg (by rw [hactive]; decide), hafter, List.append_nil]
    exact h

/-- The end of a close is no end of the session. -/
theorem Life.endClose (h : Life context c closeEnded n news) :
    Life context c.endClose true n news := by
  cases h with
  | new hcontext hbond hconnected => exact .new hcontext hbond rfl
  | live packets hcontext hbond hconnected => exact .live packets hcontext hbond rfl
  | past packets reason hcontext hbond hconnected => exact .past packets reason hcontext hbond rfl

/-! ## Calls -/

/-- What is so at any time. -/
structure Sound (context : C) (c : Client C P) (closeEnded : Bool) (n : Nat) (news : List (News P)) :
    Prop where
  life : Life context c closeEnded n news
  closed : closeEnded = true → c.closed = true

theorem sound_new (options : ClientOptions) (hub : Hub P) (context : C) (clock : UInt64) :
    Sound context (Client.new options hub context clock) false 0 [] :=
  ⟨.new rfl rfl rfl, nofun⟩

theorem Sound.keeps (h : Sound context c closeEnded n news) (hkeeps : c.Keeps c') :
    Sound context c' closeEnded n news :=
  ⟨h.life.keeps hkeeps, fun hended => hkeeps.closed (h.closed hended)⟩

/-- No close ends. -/
theorem Sound.onward (h : Sound context c closeEnded n news) :
    Sound context c (closeEnded || false) n news := by
  rw [Bool.or_false]
  exact h

/-- A call that makes no difference, tells nothing and begins no session. -/
theorem Sound.quiet (h : Sound context c closeEnded n news) (hkeeps : c.Keeps c') :
    Sound context c' (closeEnded || false) (n + 0) (news ++ []) := by
  rw [List.append_nil]
  exact (h.keeps hkeeps).onward

theorem Sound.closeSession (h : Sound context c closeEnded n news) (reason : DisconnectReason) :
    Sound context (c.onClosed reason) closeEnded n (news ++ c.toldAtEnd reason) := by
  refine ⟨h.life.closed reason, fun hended => ?_⟩
  have hclosed := h.closed hended
  rcases c.onClosed_cases reason with ⟨conn, -, -, hafter⟩ | ⟨-, hafter⟩
  · rw [hafter]
    exact hclosed
  · rw [hafter]
    exact hclosed

variable [Packet P]

theorem Sound.ready (h : Sound context c closeEnded n news) (transport : Transport) :
    Sound context (c.onReady transport).2 closeEnded (n + c.sessionsBy (.ready transport))
      (news ++ c.toldBy (.ready transport)) := by
  unfold sessionsBy toldBy
  dsimp only
  rcases c.onReady_cases transport with
    ⟨given, hclosed, hcontext, hresult, hafter⟩ | ⟨-, ⟨e, hresult⟩, hafter⟩
  · -- no close has ended, as none has begun
    have hopen : closeEnded = false := by
      cases hended : closeEnded with
      | false => rfl
      | true =>
        rw [h.closed hended] at hclosed
        cases hclosed
    obtain ⟨rfl, rfl, rfl⟩ := h.life.of_context hcontext
    rw [hresult, hafter, hopen]
    exact ⟨.live [] rfl rfl rfl, nofun⟩
  · rw [hresult, hafter]
    show Sound context c closeEnded (n + 0) (news ++ [])
    rw [List.append_nil]
    exact h

theorem Sound.frame (h : Sound context c closeEnded n news) (bytes : Bytes) :
    Sound context (c.onFrame bytes) closeEnded n (news ++ c.toldBy (.frame bytes)) := by
  have hafter := h.keeps (c.keeps_onFrame bytes)
  refine ⟨?_, hafter.closed⟩
  unfold toldBy
  dsimp only
  cases hactive : c.active with
  | false =>
    rw [if_neg (by decide), List.append_nil]
    exact hafter.life
  | true =>
    rw [if_pos rfl]
    have hstill : (c.onFrame bytes).active = true := by
      rw [active_eq, (c.keeps_onFrame bytes).bond, ← active_eq]
      exact hactive
    cases c.hub.packetOf bytes with
    | none =>
      rw [Option.map_none, Option.toList_none, List.append_nil]
      exact hafter.life
    | some packet => exact hafter.life.packet hstill packet

/-- What a call does to the life of a client. -/
theorem Sound.apply (h : Sound context c closeEnded n news) {call : Call P}
    (hallows : c.Allows call) :
    Sound context (c.apply call) (closeEnded || call.endsClose) (n + c.sessionsBy call)
      (news ++ c.toldBy call) := by
  cases call with
  | ready transport => exact (h.ready transport).onward
  | frame bytes => exact (h.frame bytes).onward
  | closed reason => exact (h.closeSession reason).onward
  | writeError => exact ((h.closeSession .reset).keeps (keeps_close _)).onward
  | setTransport transport => exact h.quiet (c.keeps_mapConnection fun _ => ⟨rfl, rfl⟩)
  | send packet => exact h.quiet (c.keeps_send packet)
  | beginClose => exact h.quiet c.keeps_beginClose
  | endClose =>
    rw [show (Call.endClose : Call P).endsClose = true from rfl, Bool.or_true]
    refine ⟨?_, fun _ => hallows⟩
    have hended := h.life.endClose
    rwa [← List.append_nil news] at hended
  | share hub => exact h.quiet ⟨rfl, rfl, rfl, id⟩
  | listen step => exact h.quiet ⟨rfl, rfl, rfl, id⟩

/-- And what many calls do. -/
theorem Sound.after (h : Sound context c closeEnded n news) {calls : List (Call P)}
    (horderly : c.Orderly calls) :
    Sound context (c.after calls) (closeEnded || calls.any (·.endsClose)) (n + c.sessions calls)
      (news ++ c.told calls) := by
  induction calls generalizing c closeEnded n news with
  | nil =>
    rw [List.any_nil, Bool.or_false]
    show Sound context c closeEnded (n + 0) (news ++ [])
    rw [List.append_nil]
    exact h
  | cons call calls ih =>
    have hrest := ih (h.apply horderly.1) horderly.2
    rw [List.any_cons, ← Bool.or_assoc, sessions, told, ← Nat.add_assoc, ← List.append_assoc]
    exact hrest

/-! ## Listeners -/

omit [Packet P] in
/-- What a step does to a dispatcher depends on nothing else. -/
theorem dispatcher_step_congr {run run' : DispatcherRun P} (h : run.dispatcher = run'.dispatcher)
    (step : Dispatcher.Step P) : (run.step step).dispatcher = (run'.step step).dispatcher := by
  obtain ⟨d, m, journal⟩ := run
  obtain ⟨d', m', journal'⟩ := run'
  obtain rfl : d = d' := h
  unfold DispatcherRun.step
  cases step with
  | add name listener =>
    dsimp only
    split <;> rfl
  | remove name =>
    dsimp only
    split <;> rfl
  | dispatch event =>
    dsimp only
    split <;> rfl
  | finish number reaction =>
    exact congrArg (d.changeWorker number) (funext fun w => w.finish_fst_congr _ _ _ _)
  | _ => rfl

omit [Packet P] in
theorem dispatcher_step_dispatch (run : DispatcherRun P) (event : ConnectionEvent P) :
    (run.step (.dispatch event)).dispatcher = (run.dispatcher.dispatch event).2 := by
  unfold DispatcherRun.step
  dsimp only
  split <;> rename_i hdispatch <;> rw [hdispatch]

omit [Packet P] in
theorem dispatcher_toldAtEnd (c : Client C P) (reason : DisconnectReason) (run : DispatcherRun P)
    (h : run.dispatcher = c.dispatcher) :
    (run.steps ((c.toldAtEnd reason).map fun news =>
      .dispatch ⟨(c.onClosed reason).connection.bind (·.id), news⟩)).dispatcher =
        (c.onClosed reason).dispatcher := by
  unfold toldAtEnd
  rcases c.onClosed_cases reason with ⟨conn, hconnection, hactive, hafter⟩ | ⟨hactive, hafter⟩
  · rw [if_pos (active_of_connection hconnection hactive), hafter, ← h]
    exact dispatcher_step_dispatch run _
  · rw [if_neg (by rw [hactive]; decide), hafter]
    exact h

/-- Listeners are told what there is to tell, and come and go. -/
theorem dispatcher_apply (c : Client C P) (call : Call P) (run : DispatcherRun P)
    (h : run.dispatcher = c.dispatcher) :
    (run.steps (c.stepsBy call)).dispatcher = (c.apply call).dispatcher := by
  cases call with
  | ready transport =>
    unfold stepsBy toldBy apply
    dsimp only
    rcases c.onReady_cases transport with
      ⟨given, -, -, hresult, hafter⟩ | ⟨-, ⟨e, hresult⟩, hafter⟩
    · rw [hresult, hafter, ← h]
      exact dispatcher_step_dispatch run _
    · rw [hresult, hafter]
      exact h
  | frame bytes =>
    unfold stepsBy toldBy apply
    dsimp only
    rcases c.onFrame_cases bytes with
      ⟨conn, conn', hub, roundTrip, hconnection, hactive, hid, -, -, hafter⟩ | ⟨hactive, hafter⟩
    · rw [if_pos (active_of_connection hconnection hactive), hafter, ← h, ← hid]
      cases c.hub.packetOf bytes with
      | none => rfl
      | some packet => exact dispatcher_step_dispatch run _
    · rw [if_neg (by rw [hactive]; decide), hafter]
      exact h
  | closed reason => exact c.dispatcher_toldAtEnd reason run h
  | writeError =>
    have hid : (c.onWriteError.connection.bind (·.id)) =
        (c.onClosed .reset).connection.bind (·.id) := by
      unfold onWriteError mapConnection
      cases (c.onClosed .reset).connection <;> rfl
    show (run.steps ((c.toldAtEnd .reset).map fun news =>
      .dispatch ⟨c.onWriteError.connection.bind (·.id), news⟩)).dispatcher = _
    rw [hid]
    exact c.dispatcher_toldAtEnd .reset run h
  | send packet =>
    refine h.trans ?_
    show c.dispatcher = (c.send packet).2.dispatcher
    unfold send
    split <;> rfl
  | listen step => exact dispatcher_step_congr h step
  | setTransport | beginClose | endClose | share => exact h

/-- The dispatcher after some calls, with its past. -/
theorem dispatcher_after (c : Client C P) (calls : List (Call P)) (run : DispatcherRun P)
    (h : run.dispatcher = c.dispatcher) :
    (run.steps (c.steps calls)).dispatcher = (c.after calls).dispatcher := by
  induction calls generalizing c run with
  | nil => exact h
  | cons call calls ih =>
    rw [steps, DispatcherRun.steps_append]
    exact ih _ _ (c.dispatcher_apply call run h)

theorem events_stepsBy {c : Client C P} {call : Call P} (hallows : c.Allows call) :
    ((c.stepsBy call).filterMap (·.event?)).map (·.news) = c.toldBy call := by
  have htold (id : Option ConnectionId) (told : List (News P)) :
      ((told.map fun news => Dispatcher.Step.dispatch ⟨id, news⟩).filterMap (·.event?)).map
        (·.news) = told := by
    rw [List.filterMap_map, List.map_filterMap]
    exact List.filterMap_some
  cases call with
  | listen step =>
    have hnone : step.event? = none := Option.isNone_iff_eq_none.mp hallows
    unfold stepsBy toldBy
    rw [List.filterMap_cons, hnone]
    rfl
  | _ => exact htold _ _

/-- The events that are dispatched are what listeners are told. -/
theorem events_steps {c : Client C P} {calls : List (Call P)} (horderly : c.Orderly calls) :
    ((c.steps calls).filterMap (·.event?)).map (·.news) = c.told calls := by
  induction calls generalizing c with
  | nil => rfl
  | cons call calls ih =>
    rw [steps, List.filterMap_append, List.map_append, events_stepsBy horderly.1, ih horderly.2]
    rfl

/-- If all names that listeners are registered under are names for threads, nothing else goes wrong. -/
theorem usable_of_mem_steps {c : Client C P} {calls : List (Call P)}
    (h : ∀ step, Call.listen step ∈ calls → step.usable = true) {step : Dispatcher.Step P}
    (hstep : step ∈ c.steps calls) : step.usable = true := by
  induction calls generalizing c with
  | nil => cases hstep
  | cons call calls ih =>
    rcases List.mem_append.mp hstep with hstep | hstep
    · cases call with
      | listen listened =>
        rw [List.mem_singleton.mp hstep]
        exact h listened List.mem_cons_self
      | _ =>
        obtain ⟨news, -, rfl⟩ := List.mem_map.mp hstep
        rfl
    · exact ih (fun step hmem => h step (List.mem_cons_of_mem _ hmem)) hstep

end ShardMesh.Client
