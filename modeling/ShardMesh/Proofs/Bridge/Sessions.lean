import ShardMesh.Proofs.Bridge.Link
import ShardMesh.Proofs.Bridge.Shutdown

/-!
# The sessions of a link

The sessions of a link follow one another. Of each one observers are told that it is up, then the
packets that arrive in it, and at last that it is down. A session that is cut short by shutting the
link down has no end. But packets of the latest client are passed on even then: the link does not
ask whether it was shut down before it does that, though it asks before everything else.

`Course` is what a link goes through, step by step, and `Sessions` is what observers have been told
in its course.
-/

namespace ShardMesh

variable {P : Type}

/-! ## Sessions -/

/-- What observers are told of. -/
def LinkEffect.notice? : LinkEffect P → Option (LinkNotice P)
  | .notify notice => some notice
  | _ => none

/-- The packets that arrived in a generation, in order. What a link was told is given the latest
    first. -/
def packetsOf (generation : Nat) : List (LinkInput P) → List P
  | [] => []
  | .packet g packet :: past =>
    packetsOf generation past ++ if g = generation then [packet] else []
  | _ :: past => packetsOf generation past

/-- What observers are told of a session that has not ended. -/
def sessionNotices (told : List (LinkInput P)) (generation : Nat) : List (LinkNotice P) :=
  .up :: (packetsOf generation told).map .packet

/-- What a link can be told before it is shut down, and what comes of that: in which state it is
    afterwards and with which generation, and what observers are told. -/
inductive Turn (told : List (LinkInput P)) :
    LinkState × Nat → LinkInput P → LinkState × Nat → List (LinkNotice P) → Prop where
  | stay (position : LinkState × Nat) {input : LinkInput P}
      (hinput : input = .connect ∨ input = .schedule ∨ input = .retryDue) :
      Turn told position input position []
  | dial (generation : Nat) {input : LinkInput P}
      (hinput : input = .connect ∨ input = .retryDue) :
      Turn told (.disconnected, generation) input (.connecting, generation + 1) []
  | failed (generation : Nat) :
      Turn told (.connecting, generation) (.failed generation) (.disconnected, generation) []
  | active (generation : Nat) (hnew : .active generation ∉ told) :
      Turn told (.connecting, generation) (.active generation) (.connected, generation) [.up]
  | packet (generation : Nat) (packet : P) (hactive : .active generation ∈ told) :
      Turn told (.connected, generation) (.packet generation packet) (.connected, generation)
        [.packet packet]
  | lost (generation : Nat) :
      Turn told (.connected, generation) (.lost generation) (.disconnected, generation) [.down]

/-- The sessions that a link has had, as observers were told of them. -/
structure Sessions (told : List (LinkInput P)) (position : LinkState × Nat)
    (notices : List (LinkNotice P)) (ended : List Nat) : Prop where
  ascending : ended.Pairwise (· < ·)
  earlier : ∀ g ∈ ended, g ≤ position.2 ∧ (position.1 ≠ .disconnected → g < position.2)
  notices_eq : notices = ended.flatMap (fun g => sessionNotices told g ++ [.down]) ++
    if position.1 = .connected then sessionNotices told position.2 else []
  /-- A generation whose dial was answered has ended, unless its session is still up. -/
  answered : ∀ g, 1 ≤ g → g ≤ position.2 → .failed g ∈ told ∨ .active g ∈ told ∨
    g = position.2 ∧ position.1 = .connecting
  open_ : ∀ g, .active g ∈ told → .lost g ∈ told ∨ g = position.2 ∧ position.1 = .connected
  /-- Nothing arrives in a generation before its session is active. -/
  silent : ∀ g, .active g ∉ told → packetsOf g told = []

theorem sessions_start : Sessions ([] : List (LinkInput P)) (.disconnected, 0) [] [] where
  ascending := .nil
  earlier := nofun
  notices_eq := rfl
  answered := fun _ hpos hle => absurd (Nat.lt_of_lt_of_le hpos hle) (Nat.lt_irrefl 0)
  open_ := nofun
  silent := fun _ _ => rfl

theorem packetsOf_cons_of_ne {told : List (LinkInput P)} {input : LinkInput P} {generation : Nat}
    (h : ∀ packet, input ≠ .packet generation packet) :
    packetsOf generation (input :: told) = packetsOf generation told := by
  cases input with
  | packet g packet =>
    have hne : g ≠ generation := fun heq => h packet (heq ▸ rfl)
    rw [packetsOf, if_neg hne, List.append_nil]
  | _ => rfl

theorem sessionNotices_cons_of_ne {told : List (LinkInput P)} {input : LinkInput P}
    {generation : Nat} (h : ∀ packet, input ≠ .packet generation packet) :
    sessionNotices (input :: told) generation = sessionNotices told generation := by
  unfold sessionNotices
  rw [packetsOf_cons_of_ne h]

/-- Nothing is added to sessions in which no packet arrives. -/
theorem ended_notices_congr {told : List (LinkInput P)} {input : LinkInput P} {ended : List Nat}
    (h : ∀ g ∈ ended, ∀ packet, input ≠ .packet g packet) :
    ended.flatMap (fun g => sessionNotices (input :: told) g ++ [.down]) =
      ended.flatMap fun g => sessionNotices told g ++ [.down] := by
  rw [List.flatMap_def, List.flatMap_def]
  refine congrArg List.flatten (List.map_congr_left fun g hg => ?_)
  rw [sessionNotices_cons_of_ne (h g hg)]

theorem active_mem_of_cons {told : List (LinkInput P)} {input : LinkInput P} {generation : Nat}
    (h : .active generation ∈ input :: told) (hne : input ≠ .active generation) :
    .active generation ∈ told := List.mem_of_ne_of_mem hne.symm h

section Turns

variable {told : List (LinkInput P)} {position position' : LinkState × Nat}
  {notices : List (LinkNotice P)} {ended : List Nat}

theorem Sessions.stay (h : Sessions told position notices ended) {input : LinkInput P}
    (hinput : input = .connect ∨ input = .schedule ∨ input = .retryDue) :
    Sessions (input :: told) position notices ended := by
  have hpacket : ∀ g packet, input ≠ .packet g packet := by
    rintro g packet rfl
    rcases hinput with h | h | h <;> cases h
  have hactive : ∀ g, input ≠ .active g := by
    rintro g rfl
    rcases hinput with h | h | h <;> cases h
  refine ⟨h.ascending, h.earlier, ?_, fun g hpos hle => ?_, fun g hg => ?_, fun g hg => ?_⟩
  · rw [ended_notices_congr fun g _ => hpacket g, sessionNotices_cons_of_ne (hpacket _)]
    exact h.notices_eq
  · rcases h.answered g hpos hle with hfailed | hactive | hlatest
    · exact .inl (List.mem_cons_of_mem _ hfailed)
    · exact .inr (.inl (List.mem_cons_of_mem _ hactive))
    · exact .inr (.inr hlatest)
  · exact (h.open_ g (active_mem_of_cons hg (hactive g))).imp_left (List.mem_cons_of_mem _)
  · rw [packetsOf_cons_of_ne (hpacket g)]
    exact h.silent g fun hmem => hg (List.mem_cons_of_mem _ hmem)

/-- A link that dials is between two sessions. -/
theorem Sessions.dial {generation : Nat}
    (h : Sessions told (.disconnected, generation) notices ended) :
    Sessions told (.connecting, generation + 1) notices ended := by
  refine ⟨h.ascending, fun g hg => ?_, h.notices_eq, fun g hpos hle => ?_, fun g hg => ?_, h.silent⟩
  · have hle : g ≤ generation := (h.earlier g hg).1
    exact ⟨Nat.le_succ_of_le hle, fun _ => Nat.lt_succ_of_le hle⟩
  · rcases Nat.lt_or_eq_of_le hle with hlt | heq
    · rcases h.answered g hpos (Nat.le_of_lt_succ hlt) with hfailed | hactive | ⟨-, hstate⟩
      · exact .inl hfailed
      · exact .inr (.inl hactive)
      · cases hstate
    · exact .inr (.inr ⟨heq, rfl⟩)
  · rcases h.open_ g hg with hlost | ⟨-, hstate⟩
    · exact .inl hlost
    · cases hstate

theorem Sessions.failed {generation : Nat}
    (h : Sessions told (.connecting, generation) notices ended) :
    Sessions (.failed generation :: told) (.disconnected, generation) notices ended := by
  have hpacket : ∀ g packet, (.failed generation : LinkInput P) ≠ .packet g packet := nofun
  refine ⟨h.ascending, fun g hg => ?_, ?_, fun g hpos hle => ?_, fun g hg => ?_, fun g hg => ?_⟩
  · exact ⟨(h.earlier g hg).1, fun hstate => absurd rfl hstate⟩
  · rw [ended_notices_congr fun g _ => hpacket g]
    exact h.notices_eq
  · rcases h.answered g hpos hle with hfailed | hactive | ⟨rfl, -⟩
    · exact .inl (List.mem_cons_of_mem _ hfailed)
    · exact .inr (.inl (List.mem_cons_of_mem _ hactive))
    · exact .inl List.mem_cons_self
  · rcases h.open_ g (active_mem_of_cons hg nofun) with hlost | ⟨-, hstate⟩
    · exact .inl (List.mem_cons_of_mem _ hlost)
    · cases hstate
  · exact h.silent g fun hmem => hg (List.mem_cons_of_mem _ hmem)

theorem Sessions.active {generation : Nat}
    (h : Sessions told (.connecting, generation) notices ended)
    (hnew : .active generation ∉ told) :
    Sessions (.active generation :: told) (.connected, generation) (notices ++ [.up]) ended := by
  have hpacket : ∀ g packet, (.active generation : LinkInput P) ≠ .packet g packet := nofun
  refine ⟨h.ascending, fun g hg => ?_, ?_, fun g hpos hle => ?_, fun g hg => ?_, fun g hg => ?_⟩
  · have hlt : g < generation := (h.earlier g hg).2 nofun
    exact ⟨Nat.le_of_lt hlt, fun _ => hlt⟩
  · have hbefore : notices = ended.flatMap fun g => sessionNotices told g ++ [.down] := by
      rw [h.notices_eq, if_neg nofun, List.append_nil]
    have hup : sessionNotices (.active generation :: told) generation = [.up] := by
      rw [sessionNotices_cons_of_ne (hpacket generation), sessionNotices, h.silent _ hnew]
      rfl
    rw [ended_notices_congr fun g _ => hpacket g, ← hbefore, if_pos rfl, hup]
  · rcases h.answered g hpos hle with hfailed | hactive | ⟨rfl, -⟩
    · exact .inl (List.mem_cons_of_mem _ hfailed)
    · exact .inr (.inl (List.mem_cons_of_mem _ hactive))
    · exact .inr (.inl List.mem_cons_self)
  · rcases List.mem_cons.mp hg with heq | hg
    · cases heq
      exact .inr ⟨rfl, rfl⟩
    · rcases h.open_ g hg with hlost | ⟨-, hstate⟩
      · exact .inl (List.mem_cons_of_mem _ hlost)
      · cases hstate
  · exact h.silent g fun hmem => hg (List.mem_cons_of_mem _ hmem)

theorem Sessions.packet {generation : Nat}
    (h : Sessions told (.connected, generation) notices ended) (packet : P)
    (hactive : .active generation ∈ told) :
    Sessions (.packet generation packet :: told) (.connected, generation)
      (notices ++ [.packet packet]) ended := by
  refine ⟨h.ascending, h.earlier, ?_, fun g hpos hle => ?_, fun g hg => ?_, fun g hg => ?_⟩
  · -- the sessions that have ended are of earlier generations, so the packet is not theirs
    have hended : ∀ g ∈ ended, ∀ other : P,
        LinkInput.packet generation packet ≠ .packet g other := by
      intro g hg other heq
      have hlt : g < generation := (h.earlier g hg).2 nofun
      exact Nat.ne_of_gt hlt (LinkInput.packet.inj heq).1
    have hlatest : sessionNotices (.packet generation packet :: told) generation =
        sessionNotices told generation ++ [.packet packet] := by
      unfold sessionNotices
      rw [packetsOf, if_pos rfl, List.map_append]
      rfl
    rw [ended_notices_congr hended, if_pos rfl, hlatest, ← List.append_assoc, h.notices_eq,
      if_pos rfl]
  · rcases h.answered g hpos hle with hfailed | hactive | hlatest
    · exact .inl (List.mem_cons_of_mem _ hfailed)
    · exact .inr (.inl (List.mem_cons_of_mem _ hactive))
    · exact .inr (.inr hlatest)
  · exact (h.open_ g (active_mem_of_cons hg nofun)).imp_left (List.mem_cons_of_mem _)
  · have hother : generation ≠ g := by
      rintro rfl
      exact hg (List.mem_cons_of_mem _ hactive)
    rw [packetsOf, if_neg hother, List.append_nil]
    exact h.silent g fun hmem => hg (List.mem_cons_of_mem _ hmem)

theorem Sessions.lost {generation : Nat}
    (h : Sessions told (.connected, generation) notices ended) :
    Sessions (.lost generation :: told) (.disconnected, generation) (notices ++ [.down])
      (ended ++ [generation]) := by
  have hpacket : ∀ g packet, (.lost generation : LinkInput P) ≠ .packet g packet := nofun
  have hearlier : ∀ g ∈ ended, g < generation := fun g hg => (h.earlier g hg).2 nofun
  refine ⟨?_, fun g hg => ?_, ?_, fun g hpos hle => ?_, fun g hg => ?_, fun g hg => ?_⟩
  · refine List.pairwise_append.mpr ⟨h.ascending, List.pairwise_singleton _ _, ?_⟩
    intro g hg last hlast
    obtain rfl := List.mem_singleton.mp hlast
    exact hearlier g hg
  · refine ⟨?_, fun hstate => absurd rfl hstate⟩
    rcases List.mem_append.mp hg with hg | hg
    · exact Nat.le_of_lt (hearlier g hg)
    · exact Nat.le_of_eq (List.mem_singleton.mp hg)
  · rw [ended_notices_congr fun g _ => hpacket g, List.flatMap_append, if_neg nofun,
      List.append_nil, h.notices_eq, if_pos rfl, List.append_assoc]
    exact congrArg (_ ++ ·) (List.append_nil _).symm
  · rcases h.answered g hpos hle with hfailed | hactive | ⟨-, hstate⟩
    · exact .inl (List.mem_cons_of_mem _ hfailed)
    · exact .inr (.inl (List.mem_cons_of_mem _ hactive))
    · cases hstate
  · rcases h.open_ g (active_mem_of_cons hg nofun) with hlost | ⟨rfl, -⟩
    · exact .inl (List.mem_cons_of_mem _ hlost)
    · exact .inl List.mem_cons_self
  · exact h.silent g fun hmem => hg (List.mem_cons_of_mem _ hmem)

/-- Whatever a link can be told, its sessions follow one another. -/
theorem Sessions.turn (h : Sessions told position notices ended) {input : LinkInput P}
    {news : List (LinkNotice P)} (hturn : Turn told position input position' news) :
    ∃ ended', Sessions (input :: told) position' (notices ++ news) ended' := by
  cases hturn with
  | stay _ hinput =>
    rw [List.append_nil]
    exact ⟨ended, h.stay hinput⟩
  | dial generation hinput =>
    rw [List.append_nil]
    exact ⟨ended, (h.stay (hinput.imp_right .inr)).dial⟩
  | failed generation =>
    rw [List.append_nil]
    exact ⟨ended, h.failed⟩
  | active generation hnew => exact ⟨ended, h.active hnew⟩
  | packet generation packet hactive => exact ⟨ended, h.packet packet hactive⟩
  | lost generation => exact ⟨ended ++ [generation], h.lost⟩

end Turns

/-! ## The course of a link -/

namespace LinkRun

/-- What observers were told, in order. -/
def notices (run : LinkRun P) : List (LinkNotice P) := run.asked.filterMap LinkEffect.notice?

/-- What a link can be told. It is shut down once at most. Before that its clients report in order:
    packets arrive between the beginning and the end of a session. After that there is nothing it
    cannot be told. -/
def Permits (run : LinkRun P) : LinkInput P → Prop
  | .shutDown => run.link.shutDown = false
  | .packet generation _ =>
    run.link.shutDown = true ∨ .active generation ∈ run.told ∧ .lost generation ∉ run.told
  | input => run.link.shutDown = true ∨ run.Allows input

/-- What a link goes through. -/
inductive Course : LinkRun P → Prop where
  | start : Course start
  | tell {run : LinkRun P} (h : Course run) (now delay : Nat) (input : LinkInput P)
      (hpermits : run.Permits input) : Course (run.tell now delay input)

variable {run : LinkRun P} {now delay : Nat} {input : LinkInput P}

theorem tell_eq (run : LinkRun P) (now delay : Nat) (input : LinkInput P) :
    (run.tell now delay input).link = (run.link.step now delay input).1 ∧
      (run.tell now delay input).told = input :: run.told ∧
      (run.tell now delay input).notices =
        run.notices ++ (run.link.step now delay input).2.filterMap LinkEffect.notice? := by
  cases input <;> exact ⟨rfl, rfl, List.filterMap_append⟩

/-- To give up a client tells observers nothing. -/
theorem release_notices (l : Link) :
    (l.release : List (LinkEffect P)).filterMap LinkEffect.notice? = [] := by
  unfold Link.release
  cases l.held <;> rfl

section Turn

variable {notices : List (LinkNotice P)} {ended : List Nat}

/-- A client that can still report the outcome of its dial is the latest one. -/
theorem Sound.connecting_of_dialed (hs : run.Sound)
    (h : Sessions run.told (run.link.state, run.link.generation) notices ended) {generation : Nat}
    (hallowed : generation ∈ run.dialed ∧ .failed generation ∉ run.told ∧
      .active generation ∉ run.told) :
    generation = run.link.generation ∧ run.link.state = .connecting := by
  obtain ⟨hdialed, hfailed, hactive⟩ := hallowed
  rw [hs.dialed, List.mem_range'_1] at hdialed
  rcases h.answered generation hdialed.1 (by omega) with hmem | hmem | hlatest
  · exact absurd hmem hfailed
  · exact absurd hmem hactive
  · exact hlatest

/-- A link that is not shut down takes one of the turns. -/
theorem Sound.turn (hs : run.Sound)
    (h : Sessions run.told (run.link.state, run.link.generation) notices ended)
    (hinput : input ≠ .shutDown) (hpermits : run.Permits input) :
    (run.tell now delay input).Sound ∧
      Turn run.told (run.link.state, run.link.generation) input
        ((run.link.step now delay input).1.state, (run.link.step now delay input).1.generation)
        ((run.link.step now delay input).2.filterMap LinkEffect.notice?) := by
  have hrunning : ¬run.link.shutDown = true := Bool.eq_false_iff.mp hs.running
  have hlatest (l : Link) : (l.schedule now delay).state = l.state ∧
      (l.schedule now delay).generation = l.generation := by
    unfold Link.schedule
    split <;> exact ⟨rfl, rfl⟩
  cases input with
  | connect =>
    refine ⟨hs.tell_connect now delay, ?_⟩
    by_cases hstate : run.link.state = .disconnected
    · have hheld := hs.held
      rw [if_pos hstate] at hheld
      have hstep : run.link.step now delay (.connect : LinkInput P) = _ :=
        Link.connect_of_disconnected hs.unmuted hs.running hstate hheld
      rw [hstep, hstate]
      exact .dial _ (.inl rfl)
    · have hstep : run.link.step now delay (.connect : LinkInput P) = _ :=
        Link.connect_of_busy hstate
      rw [hstep]
      exact .stay _ (.inl rfl)
  | schedule =>
    refine ⟨hs.tell_schedule now delay, ?_⟩
    obtain ⟨hstate, hgeneration⟩ := hlatest run.link
    show Turn _ _ _ ((run.link.schedule now delay).state, (run.link.schedule now delay).generation) _
    rw [hstate, hgeneration]
    exact .stay _ (.inr (.inl rfl))
  | retryDue =>
    refine ⟨hs.tell_retryDue now delay, ?_⟩
    by_cases hstate : run.link.state = .disconnected
    · have hheld := hs.held
      rw [if_pos hstate] at hheld
      rw [Link.step_retryDue_of_disconnected hs.unmuted hs.running hstate hheld, hstate]
      exact .dial _ (.inr rfl)
    · rw [Link.step_retryDue_of_busy hstate]
      exact .stay _ (.inr (.inr rfl))
  | failed generation =>
    refine ⟨hs.tell_failed now delay generation, ?_⟩
    obtain ⟨rfl, hstate⟩ := hs.connecting_of_dialed h (hpermits.resolve_left hrunning)
    obtain ⟨hnext, hgeneration⟩ := hlatest { run.link with state := .disconnected, held := none }
    rw [Link.step, Link.ignores_latest hs.running, if_neg Bool.false_ne_true]
    dsimp only
    rw [hnext, hgeneration, hstate, release_notices]
    exact .failed _
  | active generation =>
    have hallowed := hpermits.resolve_left hrunning
    refine ⟨hs.tell_active now delay hallowed, ?_⟩
    obtain ⟨rfl, hstate⟩ := hs.connecting_of_dialed h hallowed
    rw [Link.step, Link.ignores_latest hs.running, if_neg Bool.false_ne_true, hstate]
    exact .active _ hallowed.2.2
  | lost generation =>
    have hallowed := hpermits.resolve_left hrunning
    refine ⟨hs.tell_lost now delay hallowed, ?_⟩
    obtain ⟨rfl, hstate⟩ : generation = run.link.generation ∧ run.link.state = .connected :=
      (h.open_ generation hallowed.1).resolve_left hallowed.2
    obtain ⟨hnext, hgeneration⟩ := hlatest { run.link with state := .disconnected, held := none }
    rw [Link.step, Link.ignores_latest hs.running, if_neg Bool.false_ne_true]
    dsimp only
    rw [hnext, hgeneration, List.filterMap_append, release_notices, if_pos hstate, hstate]
    exact .lost _
  | packet generation packet =>
    obtain ⟨hactive, hlost⟩ := hpermits.resolve_left hrunning
    refine ⟨hs.tell_packet now delay generation packet, ?_⟩
    obtain ⟨rfl, hstate⟩ : generation = run.link.generation ∧ run.link.state = .connected :=
      (h.open_ generation hactive).resolve_left hlost
    rw [Link.step, if_neg (not_not_intro rfl), hstate]
    exact .packet _ packet hactive
  | shutDown => exact absurd rfl hinput
  | closed => exact (hpermits.resolve_left hrunning).elim

end Turn

/-- What observers were told in the course of a link, when it was told something `since` it was shut
    down, that included, and something else `before`. -/
structure Told (run : LinkRun P) (since before : List (LinkInput P)) (position : LinkState × Nat)
    (notices : List (LinkNotice P)) (ended : List Nat) : Prop where
  told : run.told = since ++ before
  running : .shutDown ∉ before
  sessions : Sessions before position notices ended
  generation : position.2 = run.link.generation
  /-- Packets of the latest generation are passed on even then. -/
  notices_eq : run.notices = notices ++ (packetsOf run.link.generation since).map .packet
  phase : since = [] ∧ run.Sound ∧ position.1 = run.link.state ∨
    run.link.Over ∧ ∃ later, since = later ++ [.shutDown]

variable {since before : List (LinkInput P)} {position : LinkState × Nat}
  {notices : List (LinkNotice P)} {ended : List Nat}

/-- The link is shut down. -/
theorem Told.shutDown (h : Told run [] before position notices ended) (now delay : Nat) :
    Told (run.tell now delay .shutDown) [.shutDown] before position notices ended := by
  obtain ⟨hlink, htold, hnotices⟩ := run.tell_eq now delay .shutDown
  refine ⟨?_, h.running, h.sessions, ?_, ?_, .inr ⟨?_, [], rfl⟩⟩
  · rw [htold, h.told]
    rfl
  · rw [hlink]
    exact h.generation
  · rw [hnotices, h.notices_eq]
    show _ ++ run.link.release.filterMap LinkEffect.notice? = _
    rw [release_notices, List.append_nil]
    rfl
  · rw [hlink]
    exact Link.over_of_shutDown run.link now delay

/-- The link takes a turn. -/
theorem Told.turn (h : Told run [] before position notices ended) (hs : run.Sound)
    (hstate : position.1 = run.link.state) (hinput : input ≠ .shutDown)
    (hpermits : run.Permits input) :
    ∃ position' notices' ended',
      Told (run.tell now delay input) [] (input :: before) position' notices' ended' := by
  obtain ⟨hlink, htold, hnotices⟩ := run.tell_eq now delay input
  obtain rfl : run.told = before := h.told
  obtain rfl : position = (run.link.state, run.link.generation) := Prod.ext hstate h.generation
  have hbefore : run.notices = notices := by
    rw [h.notices_eq]
    exact List.append_nil _
  obtain ⟨hsound, hturn⟩ : (run.tell now delay input).Sound ∧ _ :=
    hs.turn h.sessions hinput hpermits
  obtain ⟨ended', hsessions⟩ := h.sessions.turn hturn
  refine ⟨_, _, ended', htold, ?_, hsessions, by rw [hlink], ?_, .inl ⟨rfl, hsound, by rw [hlink]⟩⟩
  · rw [List.mem_cons, not_or]
    exact ⟨hinput.symm, h.running⟩
  · rw [hnotices, hbefore]
    exact (List.append_nil _).symm

/-- A link that is over is told something. -/
theorem Told.later (h : Told run since before position notices ended) (hover : run.link.Over)
    {later : List (LinkInput P)} (hsince : since = later ++ [.shutDown]) :
    Told (run.tell now delay input) (input :: since) before position notices ended := by
  obtain ⟨hlink, htold, hnotices⟩ := run.tell_eq now delay input
  obtain ⟨hnext, hasked⟩ := hover.step now delay input
  have hsame : (run.tell now delay input).link.generation = run.link.generation ∧
      (run.tell now delay input).link.Over := by
    rw [hlink]
    rcases hnext with heq | heq <;> rw [heq]
    · exact ⟨rfl, hover⟩
    · exact ⟨rfl, hover.disconnected⟩
  refine ⟨?_, h.running, h.sessions, h.generation.trans hsame.1.symm, ?_,
    .inr ⟨hsame.2, input :: later, by rw [hsince]; rfl⟩⟩
  · rw [htold, h.told]
    rfl
  · rw [hnotices, h.notices_eq, hsame.1]
    rcases hasked with ⟨hpacket, hnothing⟩ | ⟨packet, rfl, hpacket⟩
    · rw [hnothing, packetsOf_cons_of_ne hpacket]
      exact List.append_nil _
    · rw [hpacket, packetsOf, if_pos rfl, List.map_append, ← List.append_assoc]
      rfl

theorem Course.told (h : run.Course) :
    ∃ since before position notices ended, Told run since before position notices ended := by
  induction h with
  | start =>
    exact ⟨[], [], (.disconnected, 0), [], [],
      ⟨rfl, nofun, sessions_start, rfl, rfl, .inl ⟨rfl, sound_start, rfl⟩⟩⟩
  | @tell run h now delay input hpermits ih =>
    -- before the link is shut down each input is a turn; from then on it is one of what came since
    obtain ⟨since, before, position, notices, ended, ih⟩ := ih
    rcases ih.phase with ⟨rfl, hs, hstate⟩ | ⟨hover, later, hsince⟩
    · by_cases hinput : input = .shutDown
      · subst hinput
        exact ⟨_, _, _, _, _, ih.shutDown now delay⟩
      · obtain ⟨position', notices', ended', hturn⟩ := ih.turn hs hstate hinput hpermits
        exact ⟨_, _, _, _, _, hturn⟩
    · exact ⟨_, _, _, _, _, ih.later hover hsince⟩

end LinkRun

end ShardMesh
