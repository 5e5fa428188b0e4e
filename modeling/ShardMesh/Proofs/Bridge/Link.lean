import ShardMesh.Bridge.Link

/-!
# What a link does over time

Whoever uses a link may tell it to connect or to try again at any time, its alarm may ring whenever
it is set, and its clients report in any order and as late as they like; each of them only reports
that its dial failed, or else that its session is active and later perhaps that it was lost. Whatever
happens, a link that was told to connect has a client or will try again, it never has two clients or
two alarms, and it gives up every client that it does not have any more.

`LinkRun` is a link together with its past, `Reachable` says which pasts there are, and `Sound` is
what all of them have in common.
-/

namespace ShardMesh

variable {P : Type}

/-- The generation that an effect dials for. -/
def LinkEffect.dialed? : LinkEffect P → Option Nat
  | .dial generation => some generation
  | _ => none

/-- The generation whose client an effect closes. -/
def LinkEffect.closed? : LinkEffect P → Option Nat
  | .close generation => some generation
  | _ => none

/-! ## What the operations of a link do -/

namespace Link

theorem connect_of_disconnected {l : Link} (hmuted : l.muted = false) (hrunning : l.shutDown = false)
    (hstate : l.state = .disconnected) (hheld : l.held = none) :
    (l.connect : Link × List (LinkEffect P)) =
      ({ l with generation := l.generation + 1, held := some (l.generation + 1),
                state := .connecting, attempts := l.attempts + 1 }, [.dial (l.generation + 1)]) := by
  simp [connect, hmuted, hrunning, hstate, hheld]

theorem connect_of_busy {l : Link} (hstate : l.state ≠ .disconnected) :
    (l.connect : Link × List (LinkEffect P)) = (l, []) := by
  simp [connect, hstate]

/-- After scheduling the link waits for an alarm: for the one that it waited for before, if there was
    one. -/
theorem schedule_of_running {l : Link} (hrunning : l.shutDown = false) (now delay : Nat) :
    l.schedule now delay = { l with retry := some (l.retry.getD (.after now delay)) } := by
  obtain ⟨muted, state, held, retry, shutDown, generation, attempts⟩ := l
  obtain rfl : shutDown = false := hrunning
  cases retry <;> rfl

/-- The alarm rings for a link that is disconnected: it dials. -/
theorem step_retryDue_of_disconnected {l : Link} (hmuted : l.muted = false)
    (hrunning : l.shutDown = false) (hstate : l.state = .disconnected) (hheld : l.held = none)
    (now delay : Nat) :
    (l.step now delay .retryDue : Link × List (LinkEffect P)) =
      ({ l with generation := l.generation + 1, held := some (l.generation + 1),
                state := .connecting, retry := none, attempts := l.attempts + 1 },
        [.countRetry, .dial (l.generation + 1)]) := by
  simp [step, connect, release, hmuted, hrunning, hstate, hheld]

/-- The alarm rings for a link that has a client: nothing else happens. -/
theorem step_retryDue_of_busy {l : Link} (hstate : l.state ≠ .disconnected) (now delay : Nat) :
    (l.step now delay .retryDue : Link × List (LinkEffect P)) = ({ l with retry := none }, []) := by
  simp [step, hstate]

/-- What a generation reports that is not the latest one is ignored. -/
theorem step_of_ignores {l : Link} {generation : Nat} (h : l.ignores generation = true)
    (now delay : Nat) {input : LinkInput P}
    (hinput : input = .failed generation ∨ input = .active generation ∨ input = .lost generation) :
    l.step now delay input = (l, []) := by
  rcases hinput with rfl | rfl | rfl <;> rw [step, if_pos h]

theorem ignores_of_ne {l : Link} {generation : Nat} (h : l.generation ≠ generation) :
    l.ignores generation = true := by
  simp [ignores, h]

/-- What the latest generation reports is not ignored by a link that is not shut down. -/
theorem ignores_latest {l : Link} (hrunning : l.shutDown = false) :
    l.ignores l.generation = false := by
  simp [ignores, hrunning]

/-- Giving up a client closes it and dials for nothing. -/
theorem release_effects (l : Link) :
    (l.release : List (LinkEffect P)).filterMap LinkEffect.dialed? = [] ∧
      (l.release : List (LinkEffect P)).filterMap LinkEffect.closed? = l.held.toList := by
  unfold release
  cases l.held <;> exact ⟨rfl, rfl⟩

end Link

/-! ## Runs -/

/-- A link with its past. -/
structure LinkRun (P : Type) where
  link : Link
  /-- What the link was told, the latest first. -/
  told : List (LinkInput P)
  /-- What the link asked for, in order. -/
  asked : List (LinkEffect P)
  /-- The alarms that it set and that have not rung, in the order in which they were set. -/
  timers : List Alarm

namespace LinkRun

/-- A link that was told nothing yet. -/
def start : LinkRun P := ⟨{}, [], [], []⟩

/-- The generations that were dialed for, in order. -/
def dialed (run : LinkRun P) : List Nat := run.asked.filterMap LinkEffect.dialed?

/-- The generations whose clients were closed, in order. -/
def closed (run : LinkRun P) : List Nat := run.asked.filterMap LinkEffect.closed?

/-- The alarm that was set if a link waits for an alarm now and did not wait for this one before. -/
def newAlarm (awaited retry : Option Alarm) : List Alarm :=
  if retry = awaited then [] else retry.toList

/-- Tells the link something. An alarm that rings is the first of those that were set, and the link
    set one more if afterwards it waits for another one than before. -/
def tell (run : LinkRun P) (now delay : Nat) (input : LinkInput P) : LinkRun P :=
  let (link, effects) := run.link.step now delay input
  let (timers, awaited) :=
    match input with
    | .retryDue => (run.timers.tail, none)
    | _ => (run.timers, run.link.retry)
  { link
    told := input :: run.told
    asked := run.asked ++ effects
    timers := timers ++ newAlarm awaited link.retry }

/-- What a link can be told before it is shut down. An alarm rings only if it is set. The client of
    a generation that was dialed for reports one failure, or one session and then one loss. -/
def Allows (run : LinkRun P) : LinkInput P → Prop
  | .connect | .schedule | .packet _ _ => True
  | .retryDue => run.timers ≠ []
  | .failed generation | .active generation =>
    generation ∈ run.dialed ∧ .failed generation ∉ run.told ∧ .active generation ∉ run.told
  | .lost generation => .active generation ∈ run.told ∧ .lost generation ∉ run.told
  | .shutDown | .closed => False

/-- What a link may come to, in whatever order it is told what it can be told. Time passes as it
    likes, and the delay before retries may be another one each time. -/
inductive Reachable : LinkRun P → Prop where
  | start : Reachable start
  | tell {run : LinkRun P} (h : Reachable run) (now delay : Nat) (input : LinkInput P)
      (hallowed : run.Allows input) : Reachable (run.tell now delay input)

/-- What holds of a link whatever it was told. -/
structure Sound (run : LinkRun P) : Prop where
  unmuted : run.link.muted = false
  running : run.link.shutDown = false
  /-- A link that has begun to dial holds the client of its latest generation. -/
  held : run.link.held =
    if run.link.state = .disconnected then none else some run.link.generation
  /-- Every generation is dialed for once. -/
  dialed : run.dialed = List.range' 1 run.link.generation
  /-- Every dial was counted. -/
  attempts : run.link.attempts = run.dialed.length
  /-- All clients are closed, except the one that is held. -/
  closed : run.closed ++ run.link.held.toList = run.dialed
  /-- The alarm that the link waits for is set, and no other one. -/
  timers : run.timers = run.link.retry.toList
  /-- A link that is disconnected waits for an alarm, unless it never dialed, and its latest client
      has nothing to report any more but a loss. -/
  ended : run.link.state = .disconnected → run.link.generation = 0 ∨
    run.link.retry.isSome ∧
      (.failed run.link.generation ∈ run.told ∨ .active run.link.generation ∈ run.told)
  /-- A link that was told to connect has dialed. -/
  begun : .connect ∈ run.told → 0 < run.link.generation

theorem sound_start : Sound (start : LinkRun P) :=
  ⟨rfl, rfl, rfl, rfl, rfl, rfl, rfl, fun _ => .inl rfl, fun h => by cases h⟩

/-! ## Single steps -/

/-- A client is held only after a dial. -/
theorem Sound.generation_pos {run : LinkRun P} (h : run.Sound)
    (hstate : run.link.state ≠ .disconnected) : 0 < run.link.generation := by
  have hclosed := h.closed
  rw [h.held, if_neg hstate, h.dialed] at hclosed
  have hlength := congrArg List.length hclosed
  rw [List.length_append, List.length_range', Option.toList_some, List.length_singleton] at hlength
  omega

/-- Whatever a link is told, it stays sound if it does not change and neither dials nor closes. -/
theorem Sound.notice {run : LinkRun P} (h : run.Sound) (input : LinkInput P)
    (notices : List (LinkEffect P)) (hbegun : input = .connect → 0 < run.link.generation)
    (hdialed : notices.filterMap LinkEffect.dialed? = [])
    (hclosed : notices.filterMap LinkEffect.closed? = []) :
    Sound { run with told := input :: run.told, asked := run.asked ++ notices } := by
  have hdials : (run.asked ++ notices).filterMap LinkEffect.dialed? = run.dialed := by
    rw [List.filterMap_append, hdialed, List.append_nil]
    rfl
  refine ⟨h.unmuted, h.running, h.held, hdials.trans h.dialed,
    h.attempts.trans (congrArg List.length hdials).symm, ?_, h.timers, fun hstate => ?_,
    fun hin => ?_⟩
  · show (run.asked ++ notices).filterMap LinkEffect.closed? ++ _ =
      (run.asked ++ notices).filterMap LinkEffect.dialed?
    rw [hdials, List.filterMap_append, hclosed, List.append_nil]
    exact h.closed
  · rcases h.ended hstate with hzero | ⟨hretry, hreport⟩
    · exact .inl hzero
    · exact .inr ⟨hretry, hreport.imp (List.mem_cons_of_mem input) (List.mem_cons_of_mem input)⟩
  · rcases List.mem_cons.mp hin with heq | hin
    · exact hbegun heq.symm
    · exact h.begun hin

/-- A link that is disconnected dials for one more generation, and holds its client. -/
theorem Sound.dial {run : LinkRun P} (h : run.Sound) (hstate : run.link.state = .disconnected)
    (input : LinkInput P) (retry : Option Alarm) {effects : List (LinkEffect P)}
    (hdialed : effects.filterMap LinkEffect.dialed? = [run.link.generation + 1])
    (hclosed : effects.filterMap LinkEffect.closed? = []) :
    Sound ⟨{ run.link with
        generation := run.link.generation + 1
        held := some (run.link.generation + 1)
        state := .connecting
        attempts := run.link.attempts + 1
        retry }, input :: run.told, run.asked ++ effects, retry.toList⟩ := by
  have hbefore := h.closed
  rw [h.held, if_pos hstate, Option.toList_none, List.append_nil] at hbefore
  have hdials : (run.asked ++ effects).filterMap LinkEffect.dialed? =
      run.dialed ++ [run.link.generation + 1] := by
    rw [List.filterMap_append, hdialed]
    rfl
  refine ⟨h.unmuted, h.running, rfl, ?_, ?_, ?_, rfl, fun hfalse => ?_, fun _ => Nat.succ_pos _⟩
  · show (run.asked ++ effects).filterMap LinkEffect.dialed? = List.range' 1 (_ + 1)
    rw [hdials, h.dialed, List.range'_1_concat, Nat.add_comm 1]
  · show run.link.attempts + 1 = ((run.asked ++ effects).filterMap LinkEffect.dialed?).length
    rw [hdials, h.attempts, List.length_append, List.length_singleton]
  · show (run.asked ++ effects).filterMap LinkEffect.closed? ++ [_] =
      (run.asked ++ effects).filterMap LinkEffect.dialed?
    rw [hdials, List.filterMap_append, hclosed, List.append_nil, ← hbefore]
    rfl
  · cases hfalse

/-- A link gives up the client that it holds, and waits for an alarm. The client has reported a
    failure or a session before. -/
theorem Sound.giveUp {run : LinkRun P} (h : run.Sound) {input : LinkInput P} (alarm : Alarm)
    (hinput : input ≠ .connect)
    (hreport : .failed run.link.generation ∈ input :: run.told ∨
      .active run.link.generation ∈ input :: run.told) {effects : List (LinkEffect P)}
    (hdialed : effects.filterMap LinkEffect.dialed? = [])
    (hclosed : effects.filterMap LinkEffect.closed? = run.link.held.toList) :
    Sound ⟨{ run.link with state := .disconnected, held := none, retry := some alarm },
      input :: run.told, run.asked ++ effects, [alarm]⟩ := by
  have hdials : (run.asked ++ effects).filterMap LinkEffect.dialed? = run.dialed := by
    rw [List.filterMap_append, hdialed, List.append_nil]
    rfl
  refine ⟨h.unmuted, h.running, rfl, hdials.trans h.dialed,
    h.attempts.trans (congrArg List.length hdials).symm, ?_, rfl, fun _ => .inr ⟨rfl, hreport⟩,
    fun hin => ?_⟩
  · show (run.asked ++ effects).filterMap LinkEffect.closed? ++ [] =
      (run.asked ++ effects).filterMap LinkEffect.dialed?
    rw [hdials, List.append_nil, List.filterMap_append, hclosed]
    exact h.closed
  · rcases List.mem_cons.mp hin with heq | hin
    · exact absurd heq.symm hinput
    · exact h.begun hin

@[simp] theorem newAlarm_self (retry : Option Alarm) : newAlarm retry retry = [] := if_pos rfl

@[simp] theorem newAlarm_none (retry : Option Alarm) : newAlarm none retry = retry.toList := by
  cases retry <;> rfl

/-- The alarms that are set after scheduling are the one that the link then waits for. -/
@[simp] theorem append_newAlarm_getD (retry : Option Alarm) (alarm : Alarm) :
    retry.toList ++ newAlarm retry (some (retry.getD alarm)) = [retry.getD alarm] := by
  cases retry with
  | none => rfl
  | some awaited => rw [Option.getD_some, newAlarm_self]; rfl

/-- What the link answers, unless its alarm rings. -/
theorem tell_of_step {run : LinkRun P} {now delay : Nat} {input : LinkInput P} {link : Link}
    {effects : List (LinkEffect P)} (hinput : input ≠ .retryDue)
    (hstep : run.link.step now delay input = (link, effects)) :
    run.tell now delay input = ⟨link, input :: run.told, run.asked ++ effects,
      run.timers ++ newAlarm run.link.retry link.retry⟩ := by
  unfold tell
  rw [hstep]
  cases input with
  | retryDue => exact absurd rfl hinput
  | _ => rfl

theorem tell_retryDue_of_step {run : LinkRun P} (h : run.Sound) {now delay : Nat} {link : Link}
    {effects : List (LinkEffect P)} (hstep : run.link.step now delay .retryDue = (link, effects)) :
    run.tell now delay .retryDue =
      ⟨link, .retryDue :: run.told, run.asked ++ effects, link.retry.toList⟩ := by
  -- the alarm that rings is the only one
  have hrest : run.timers.tail = [] := by
    rw [h.timers]
    cases run.link.retry <;> rfl
  unfold tell
  rw [hstep]
  dsimp only
  rw [hrest, newAlarm_none, List.nil_append]

/-- A link that answers with notices only stays sound. -/
theorem Sound.tell_notice {run : LinkRun P} (h : run.Sound) {now delay : Nat}
    {input : LinkInput P} (hinput : input ≠ .retryDue) (notices : List (LinkEffect P))
    (hbegun : input = .connect → 0 < run.link.generation)
    (hdialed : notices.filterMap LinkEffect.dialed? = [])
    (hclosed : notices.filterMap LinkEffect.closed? = [])
    (hstep : run.link.step now delay input = (run.link, notices)) :
    (run.tell now delay input).Sound := by
  rw [tell_of_step hinput hstep, newAlarm_self, List.append_nil]
  exact h.notice input notices hbegun hdialed hclosed

theorem Sound.tell_connect {run : LinkRun P} (h : run.Sound) (now delay : Nat) :
    (run.tell now delay .connect).Sound := by
  by_cases hstate : run.link.state = .disconnected
  · have hheld := h.held
    rw [if_pos hstate] at hheld
    have hstep : run.link.step now delay (.connect : LinkInput P) = _ :=
      Link.connect_of_disconnected h.unmuted h.running hstate hheld
    rw [tell_of_step (by simp) hstep, newAlarm_self, List.append_nil, h.timers]
    exact h.dial hstate .connect run.link.retry rfl rfl
  · exact h.tell_notice (by simp) [] (fun _ => h.generation_pos hstate) rfl rfl
      (Link.connect_of_busy hstate)

theorem Sound.tell_schedule {run : LinkRun P} (h : run.Sound) (now delay : Nat) :
    (run.tell now delay .schedule).Sound := by
  have hstep : run.link.step now delay (.schedule : LinkInput P) = (_, []) :=
    congrArg (·, []) (Link.schedule_of_running h.running now delay)
  have hsound := h.notice .schedule [] (by simp) rfl rfl
  rw [tell_of_step (by simp) hstep, h.timers, append_newAlarm_getD]
  exact ⟨hsound.unmuted, hsound.running, hsound.held, hsound.dialed, hsound.attempts,
    hsound.closed, rfl, fun hstate => (hsound.ended hstate).imp_right fun hended => ⟨rfl, hended.2⟩, hsound.begun⟩

theorem Sound.tell_retryDue {run : LinkRun P} (h : run.Sound) (now delay : Nat) :
    (run.tell now delay .retryDue).Sound := by
  by_cases hstate : run.link.state = .disconnected
  · have hheld := h.held
    rw [if_pos hstate] at hheld
    rw [tell_retryDue_of_step h
      (Link.step_retryDue_of_disconnected h.unmuted h.running hstate hheld now delay)]
    exact h.dial hstate .retryDue none rfl rfl
  · have hsound := h.notice .retryDue [] (by simp) rfl rfl
    rw [tell_retryDue_of_step h (Link.step_retryDue_of_busy hstate now delay)]
    exact ⟨hsound.unmuted, hsound.running, hsound.held, hsound.dialed, hsound.attempts,
      hsound.closed, rfl, fun hdisconnected => absurd hdisconnected hstate, hsound.begun⟩

/-- The latest client is given up after it failed or was lost. -/
theorem Sound.tell_giveUp {run : LinkRun P} (h : run.Sound) {now delay : Nat}
    {input : LinkInput P} (hinput : input ≠ .retryDue) (hconnect : input ≠ .connect)
    (hreport : .failed run.link.generation ∈ input :: run.told ∨
      .active run.link.generation ∈ input :: run.told) (notices : List (LinkEffect P))
    (hdialed : notices.filterMap LinkEffect.dialed? = [])
    (hclosed : notices.filterMap LinkEffect.closed? = [])
    (hstep : run.link.step now delay input =
      ({ run.link with state := .disconnected, held := none }.schedule now delay,
        run.link.release ++ notices)) : (run.tell now delay input).Sound := by
  obtain ⟨hreleaseDialed, hreleaseClosed⟩ := Link.release_effects (P := P) run.link
  have hschedule := Link.schedule_of_running
    (l := { run.link with state := .disconnected, held := none }) h.running now delay
  rw [hschedule] at hstep
  rw [tell_of_step hinput hstep, h.timers, append_newAlarm_getD]
  refine h.giveUp _ hconnect hreport ?_ ?_
  · rw [List.filterMap_append, hreleaseDialed, hdialed, List.append_nil]
  · rw [List.filterMap_append, hreleaseClosed, hclosed, List.append_nil]

theorem Sound.tell_failed {run : LinkRun P} (h : run.Sound) (now delay generation : Nat) :
    (run.tell now delay (.failed generation)).Sound := by
  by_cases hlatest : run.link.generation = generation
  · subst hlatest
    refine h.tell_giveUp (by simp) (by simp) (.inl List.mem_cons_self) [] rfl rfl ?_
    rw [Link.step, Link.ignores_latest h.running, if_neg Bool.false_ne_true, List.append_nil]
  · exact h.tell_notice (by simp) [] (by simp) rfl rfl
      (Link.step_of_ignores (Link.ignores_of_ne hlatest) now delay (.inl rfl))

theorem Sound.tell_lost {run : LinkRun P} (h : run.Sound) (now delay : Nat) {generation : Nat}
    (hallowed : run.Allows (.lost generation)) :
    (run.tell now delay (.lost generation)).Sound := by
  by_cases hlatest : run.link.generation = generation
  · subst hlatest
    have hreport := List.mem_cons_of_mem (.lost run.link.generation) hallowed.1
    refine h.tell_giveUp (by simp) (by simp) (.inr hreport)
      (if run.link.state = .connected then [.notify .down] else []) ?_ ?_ ?_
    · split <;> rfl
    · split <;> rfl
    · rw [Link.step, Link.ignores_latest h.running, if_neg Bool.false_ne_true]
  · exact h.tell_notice (by simp) [] (by simp) rfl rfl
      (Link.step_of_ignores (Link.ignores_of_ne hlatest) now delay (.inr (.inr rfl)))

/-- A client whose session can still become active is the client that the link dials with. -/
theorem Sound.connecting_of_allows {run : LinkRun P} (h : run.Sound)
    (hallowed : run.Allows (.active run.link.generation)) : run.link.state ≠ .disconnected := by
  intro hstate
  obtain ⟨hdialed, hfailed, hactive⟩ := hallowed
  rcases h.ended hstate with hzero | ⟨-, hreport⟩
  · rw [h.dialed, hzero] at hdialed
    cases hdialed
  · exact hreport.elim hfailed hactive

theorem Sound.tell_active {run : LinkRun P} (h : run.Sound) (now delay : Nat) {generation : Nat}
    (hallowed : run.Allows (.active generation)) :
    (run.tell now delay (.active generation)).Sound := by
  by_cases hlatest : run.link.generation = generation
  · subst hlatest
    have hstate := h.connecting_of_allows hallowed
    have hheld := h.held
    rw [if_neg hstate] at hheld
    have hstep : run.link.step now delay (.active run.link.generation : LinkInput P) =
        ({ run.link with state := .connected }, [.countConnect, .notify .up]) := by
      rw [Link.step, Link.ignores_latest h.running, if_neg Bool.false_ne_true]
    have hsound := h.notice (.active run.link.generation) [.countConnect, .notify .up] (by simp)
      rfl rfl
    rw [tell_of_step (by simp) hstep, newAlarm_self, List.append_nil]
    exact ⟨hsound.unmuted, hsound.running, hheld, hsound.dialed, hsound.attempts, hsound.closed,
      hsound.timers, (fun hfalse => by cases hfalse), hsound.begun⟩
  · exact h.tell_notice (by simp) [] (by simp) rfl rfl
      (Link.step_of_ignores (Link.ignores_of_ne hlatest) now delay (.inr (.inl rfl)))

theorem Sound.tell_packet {run : LinkRun P} (h : run.Sound) (now delay generation : Nat)
    (packet : P) : (run.tell now delay (.packet generation packet)).Sound := by
  by_cases hlatest : run.link.generation = generation
  · refine h.tell_notice (by simp) [.notify (.packet packet)] (by simp) rfl rfl ?_
    rw [Link.step, if_neg (not_not_intro hlatest)]
  · refine h.tell_notice (by simp) [] (by simp) rfl rfl ?_
    rw [Link.step, if_pos hlatest]

/-- Every step that is allowed keeps a link sound. -/
theorem Sound.tell {run : LinkRun P} (h : run.Sound) (now delay : Nat) {input : LinkInput P}
    (hallowed : run.Allows input) : (run.tell now delay input).Sound := by
  cases input with
  | connect => exact h.tell_connect now delay
  | schedule => exact h.tell_schedule now delay
  | retryDue => exact h.tell_retryDue now delay
  | failed generation => exact h.tell_failed now delay generation
  | active generation => exact h.tell_active now delay hallowed
  | lost generation => exact h.tell_lost now delay hallowed
  | packet generation packet => exact h.tell_packet now delay generation packet
  | shutDown => exact hallowed.elim
  | closed => exact hallowed.elim

theorem Reachable.sound {run : LinkRun P} (h : run.Reachable) : run.Sound := by
  induction h with
  | start => exact sound_start
  | tell _ now delay input hallowed ih => exact ih.tell now delay hallowed

/-! ## Whole runs -/

/-- A link that is not shut down never gets stuck and never does anything twice. It holds a client
    exactly while it dials or is connected. Once it was told to connect, it waits for an alarm
    whenever it is disconnected. Never more than one alarm is set, and of all clients it has only the
    latest one: every other client was closed, once, in the order of the dials. And it dialed for
    every generation once, as often as it counted.

    A step is what the link decides while it is locked. Its observers are told after it is unlocked,
    and a client closes beside it; both are effects here, in the order in which they were asked
    for. -/
theorem Reachable.never_stuck {run : LinkRun P} (h : run.Reachable) :
    (run.link.held.isSome ↔ run.link.state = .connecting ∨ run.link.state = .connected) ∧
    (.connect ∈ run.told → run.link.state = .disconnected →
      ∃ alarm, run.link.retry = some alarm ∧ run.timers = [alarm]) ∧
    (run.timers.length ≤ 1 ∧ run.closed ++ run.link.held.toList = run.dialed) ∧
    run.link.attempts = run.dialed.length ∧ run.dialed = List.range' 1 run.link.generation := by
  have hsound := h.sound
  refine ⟨?_, fun hconnect hstate => ?_, ⟨?_, hsound.closed⟩, hsound.attempts, hsound.dialed⟩
  · rw [hsound.held]
    cases run.link.state <;> simp
  · rcases hsound.ended hstate with hzero | ⟨hretry, -⟩
    · exact absurd hzero (Nat.ne_of_gt (hsound.begun hconnect))
    · obtain ⟨alarm, hretry⟩ := Option.isSome_iff_exists.mp hretry
      exact ⟨alarm, hretry, by rw [hsound.timers, hretry]; rfl⟩
  · rw [hsound.timers]
    cases run.link.retry <;> simp

/-- A dial fails, the alarm rings, and the session of the second client is lost again. -/
theorem never_stuck_after_loss :
    let run : LinkRun Ping :=
      ((((start.tell 0 50 .connect).tell 10 50 (.failed 1)).tell 60 50 .retryDue).tell 70 50
        (.active 2)).tell 90 50 (.lost 2)
    run.link.state = .disconnected ∧ run.dialed = [1, 2] ∧
      (∃ alarm, run.link.retry = some alarm ∧ run.timers = [alarm]) ∧
      run.closed ++ run.link.held.toList = run.dialed ∧ run.link.attempts = run.dialed.length := by
  intro run
  have hdial : Reachable (start.tell 0 50 (.connect : LinkInput Ping)) :=
    .tell .start 0 50 .connect trivial
  have hfailed := hdial.tell 10 50 (.failed 1) ⟨by decide, by simp [tell, start], by simp [tell, start]⟩
  have hretry := hfailed.tell 60 50 .retryDue (List.cons_ne_nil _ _)
  have hactive := hretry.tell 70 50 (.active 2)
    ⟨by decide, by simp [tell, start], by simp [tell, start]⟩
  have h : run.Reachable := hactive.tell 90 50 (.lost 2) ⟨by simp [tell], by simp [tell, start]⟩
  obtain ⟨-, hwaits, ⟨-, hclosed⟩, hattempts, -⟩ := h.never_stuck
  have hconnect : .connect ∈ run.told := by simp [run, tell, start]
  exact ⟨rfl, rfl, hwaits hconnect rfl, hclosed, hattempts⟩

end LinkRun
end ShardMesh
