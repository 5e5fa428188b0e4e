import ShardMesh.Proofs.Shard.Registry

/-!
# Moves in steps

A move looks up where the member is, and then changes the registry in atomic steps: into the target,
in the index, out of the source. `Relocation.step` is one of them, `Relocation.move_eq_run` says that
all of them without a break are the whole move, and `Relocation.Reached` what the registry is in
between, if nobody else changes it.
-/

namespace ShardMesh

/-- The set of a shard has what the registry has there; the set of an unknown shard has nothing. -/
theorem ShardRegistry.get?_getD {α : Type} (r : ShardRegistry α) (shard : ShardId)
    (id : ConnectionId) : ((r.shards.get? shard).getD Dict.empty).get? id = r.memberIn shard id := by
  unfold memberIn
  cases r.shards.get? shard <;> rfl

/-- A move of a member to another shard, with what it has looked up. -/
structure Relocation (α : Type) where
  id : ConnectionId
  source : ShardId
  target : ShardId
  member : α

namespace Relocation

/-- How far a move has come. -/
inductive Stage where
  /-- Nothing is changed. -/
  | begun
  /-- The target has the member. -/
  | copied
  /-- The index names the target. -/
  | indexed
  /-- The source has given the member up. -/
  | left
  /-- The move has succeeded. -/
  | moved
  /-- The index named another shard than the source when it was to be changed. -/
  | overtaken
  /-- The move has failed. -/
  | refused
  deriving DecidableEq, Repr, Inhabited

/-- Whether a move that is not overtaken has taken the member out of the source. -/
def Stage.hasLeft : Stage → Bool
  | .left | .moved => true
  | _ => false

variable {α : Type}

/-! ## Steps -/

/-- Takes the next atomic step of a move. -/
def step (v : Relocation α) : Stage × ShardRegistry α → Stage × ShardRegistry α
  | (.begun, r) => (.copied, r.insertInto v.target v.id v.member)
  | (.copied, r) =>
    match r.swapPlacement v.id v.source v.target with
    | (true, r) => (.indexed, r)
    | (false, r) => (.overtaken, r)
  | (.indexed, r) => (.left, r.takeUnlessPlaced v.source v.id)
  | (.left, r) => (.moved, r.restoreIfPlaced v.target v.id v.member)
  | (.overtaken, r) => (.refused, r.takeUnlessPlaced v.target v.id)
  | (.moved, r) => (.moved, r)
  | (.refused, r) => (.refused, r)

theorem step_ne_begun (v : Relocation α) (state : Stage × ShardRegistry α) :
    (v.step state).1 ≠ .begun := by
  obtain ⟨stage, r⟩ := state
  cases stage
  case copied =>
    rw [step]
    split <;> simp
  all_goals simp [step]

/-- Takes all steps of a move without a break: there are four at most. -/
def run (v : Relocation α) (r : ShardRegistry α) : Stage × ShardRegistry α :=
  v.step (v.step (v.step (v.step (.begun, r))))

/-- What a move has looked up is so in the registry. -/
structure Ready (v : Relocation α) (r : ShardRegistry α) : Prop where
  index : r.placement.get? v.id = some v.source
  apart : v.source ≠ v.target
  known : (r.shards.get? v.target).isSome
  held : r.memberIn v.source v.id = some v.member

/-- The shard that has a member is known. -/
theorem Ready.knownSource {v : Relocation α} {r : ShardRegistry α} (h : v.Ready r) :
    (r.shards.get? v.source).isSome := by
  have hheld := h.held
  unfold ShardRegistry.memberIn at hheld
  cases hset : r.shards.get? v.source with
  | none =>
    rw [hset] at hheld
    cases hheld
  | some set => rfl

/-- A move is its steps, one after the other, from any registry in which it finds a member and a
    target. -/
theorem move_eq_run {v : Relocation α} {r : ShardRegistry α} (h : v.Ready r) :
    r.move v.id v.target =
      (if (v.run r).1 = .moved then .ok true else .error (.concurrentModification v.id),
        (v.run r).2) := by
  obtain ⟨set, hset⟩ := Option.isSome_iff_exists.mp h.known
  rcases hswap : (r.insertInto v.target v.id v.member).swapPlacement v.id v.source v.target with
    ⟨swapped, r'⟩
  have hsecond : v.step (.copied, r.insertInto v.target v.id v.member) =
      (if swapped then .indexed else .overtaken, r') := by
    rw [step, hswap]
    cases swapped <;> rfl
  have hrun : v.run r = v.step (v.step (if swapped then .indexed else .overtaken, r')) := by
    rw [← hsecond]
    rfl
  rw [ShardRegistry.move, h.index]
  dsimp only
  rw [if_neg h.apart, hset, h.held]
  dsimp only
  rw [hswap, hrun]
  cases swapped <;> rfl

/-! ## In between -/

/-- The registry when a move from `r` has come to a stage, and nobody else has changed anything: the
    member is in the source until it has left, and in the target from the first step on. -/
structure Reached (v : Relocation α) (r : ShardRegistry α) (stage : Stage) (r' : ShardRegistry α) :
    Prop where
  /-- Nobody was faster. -/
  ahead : stage ≠ .overtaken ∧ stage ≠ .refused
  index : r'.placement.get? v.id =
    some (if stage = .begun ∨ stage = .copied then v.source else v.target)
  known : ∀ x, (r'.shards.get? x).isSome = (r.shards.get? x).isSome
  /-- The other members are where they were. -/
  others : ∀ x id, id ≠ v.id → r'.memberIn x id = r.memberIn x id
  member : ∀ x, r'.memberIn x v.id =
    if x = v.source ∧ stage.hasLeft = false ∨ x = v.target ∧ stage ≠ .begun then some v.member
    else none

/-- A move that is ready has reached its first stage, if no other shard has its id. -/
theorem Ready.reached {v : Relocation α} {r : ShardRegistry α} (h : v.Ready r)
    (halone : ∀ x, x ≠ v.source → r.memberIn x v.id = none) : v.Reached r .begun r := by
  refine ⟨⟨by simp, by simp⟩, h.index, fun _ => rfl, fun _ _ _ => rfl, fun x => ?_⟩
  by_cases hx : x = v.source
  · rw [hx, h.held, if_pos (.inl ⟨rfl, rfl⟩)]
  · rw [halone x hx, if_neg]
    rintro (⟨h, -⟩ | ⟨-, h⟩)
    · exact hx h
    · exact h rfl

/-- At any time some set has the member. That is not to say that one finds it who looks at the sets at
    different times. -/
theorem Reached.held {v : Relocation α} {r r' : ShardRegistry α} {stage : Stage}
    (h : v.Reached r stage r') : ∃ shard, r'.memberIn shard v.id = some v.member := by
  cases hleft : stage.hasLeft with
  | false => exact ⟨v.source, by rw [h.member, if_pos (.inl ⟨rfl, hleft⟩)]⟩
  | true =>
    have hcopied : stage ≠ .begun := by
      rintro rfl
      cases hleft
    exact ⟨v.target, by rw [h.member, if_pos (.inr ⟨rfl, hcopied⟩)]⟩

/-- Every step leads to the next stage. -/
theorem Reached.step {v : Relocation α} {r r' : ShardRegistry α} {stage : Stage} (hv : v.Ready r)
    (h : v.Reached r stage r') : v.Reached r (v.step (stage, r')).1 (v.step (stage, r')).2 := by
  have hapart := hv.apart
  cases stage with
  | begun =>
    have hknown : (r'.shards.get? v.target).isSome := by
      rw [h.known]
      exact hv.known
    have hstep : v.step (.begun, r') = (.copied, r'.insertInto v.target v.id v.member) := rfl
    rw [hstep]
    refine ⟨⟨by simp, by simp⟩, h.index, fun x => ?_, fun x id hid => ?_, fun x => ?_⟩
    · rw [ShardRegistry.isSome_insertInto, h.known]
    · rw [ShardRegistry.memberIn_insertInto hknown, if_neg fun hsame => hid hsame.2.symm,
        h.others x id hid]
    · rw [ShardRegistry.memberIn_insertInto hknown, h.member]
      by_cases hx : x = v.target
      · simp [hx]
      · simp [hx, Ne.symm hx, Stage.hasLeft]
  | copied =>
    have hexpected : r'.isPlacedIn v.id v.source = true := by
      simp [ShardRegistry.isPlacedIn, h.index]
    have hstep : v.step (.copied, r') =
        (.indexed, { r' with placement := r'.placement.set v.id v.target }) := by
      simp [Relocation.step, ShardRegistry.swapPlacement, hexpected]
    rw [hstep]
    refine ⟨⟨by simp, by simp⟩, ?_, h.known, h.others, fun x => ?_⟩
    · show (r'.placement.set v.id v.target).get? v.id = _
      rw [Dict.get?_set, if_pos rfl, if_neg (by simp)]
    · exact (h.member x).trans (by simp [Stage.hasLeft])
  | indexed =>
    have hgone : r'.isPlacedIn v.id v.source = false := by
      simp [ShardRegistry.isPlacedIn, h.index, Ne.symm hapart]
    have hstep : v.step (.indexed, r') = (.left, r'.takeFrom v.source v.id) := by
      simp [Relocation.step, ShardRegistry.takeUnlessPlaced, hgone]
    rw [hstep]
    refine ⟨⟨by simp, by simp⟩, h.index, fun x => ?_, fun x id hid => ?_, fun x => ?_⟩
    · rw [ShardRegistry.isSome_takeFrom, h.known]
    · rw [ShardRegistry.memberIn_takeFrom, if_neg fun hsame => hid hsame.2.symm, h.others x id hid]
    · rw [ShardRegistry.memberIn_takeFrom, h.member]
      by_cases hx : x = v.source
      · simp [hx, Stage.hasLeft, hapart]
      · simp [hx, Ne.symm hx, Stage.hasLeft]
  | left =>
    have harrived : r'.memberIn v.target v.id = some v.member := by
      rw [h.member, if_pos (.inr ⟨rfl, by decide⟩)]
    have hstep : v.step (.left, r') = (.moved, r') := by
      simp [Relocation.step, ShardRegistry.restoreIfPlaced, harrived]
    rw [hstep]
    exact ⟨⟨by simp, by simp⟩, h.index, h.known, h.others,
      fun x => (h.member x).trans (by simp [Stage.hasLeft])⟩
  | moved => exact h
  | overtaken => exact absurd rfl h.ahead.1
  | refused => exact absurd rfl h.ahead.2

end Relocation
end ShardMesh
