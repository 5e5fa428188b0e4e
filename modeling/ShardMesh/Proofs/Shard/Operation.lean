import Mathlib.Logic.Relation
import ShardMesh.Proofs.Shard.Registry

/-!
# Moves and removals in steps

A move or a removal of a connection is a sequence of steps, and between any two of them others may
change the registry. The index and a set are never changed in one step. Where a set is changed on a
condition, the operation holds the entry of the set while it looks at the index, so it acts on what
the index said a step before; only the entry is still as it was.

An operation that nobody disturbs does what the call does (`Operation.alone_move`,
`Operation.alone_remove`).
-/

namespace ShardMesh

open ShardRegistry (Answer)

/-- A way from one shard to another, and the member who takes it. -/
structure Passage (α : Type) where
  source : ShardId
  target : ShardId
  member : α

/-- What a move puts right in a set after it has come to the index. -/
inductive Amendment where
  /-- The member leaves the source, unless the index names the source again. -/
  | leave
  /-- The member comes back to the target, if it is missing there although the index names the
  target. -/
  | restore
  /-- The copy leaves the target, unless the index names the target. -/
  | retreat
  deriving DecidableEq, Repr

namespace Amendment

variable {α : Type}

/-- The set that is put right. -/
def shard (p : Passage α) : Amendment → ShardId
  | .leave => p.source
  | .restore | .retreat => p.target

/-- Whether the member is put into the set. Otherwise it is taken out. -/
def restores : Amendment → Bool
  | .restore => true
  | .leave | .retreat => false

/-- Does what is to be done in the set. -/
def apply (a : Amendment) (id : ConnectionId) (p : Passage α) (r : ShardRegistry α) :
    ShardRegistry α :=
  if a.restores then r.insertInto (a.shard p) id p.member else r.takeFrom (a.shard p) id

end Amendment

/-- How far an amendment has come. -/
inductive Grip where
  /-- It comes to the entry of the set. -/
  | reaching
  /-- It holds the entry, and has something to decide. -/
  | holding
  /-- It holds the entry, and knows whether the index named the shard. -/
  | informed (named : Bool)
  deriving DecidableEq, Repr

/-- A move or a removal of one connection, at some point of its way. -/
inductive Operation (α : Type) where
  /-- A move that is to begin. -/
  | move (target : ShardId)
  /-- A move that has seen the source in the index, and knows the sets of both shards. -/
  | located (source target : ShardId)
  /-- A move that has the member. -/
  | fetched (p : Passage α)
  /-- A move that has put a copy into the target. -/
  | copied (p : Passage α)
  /-- A move that has come to the index, and amends the sets. -/
  | amending (p : Passage α) (a : Amendment) (g : Grip)
  /-- A removal that is to begin. -/
  | remove
  /-- A removal that has taken the connection, then in this shard, out of the index. -/
  | unindexed (shard : ShardId)
  /-- An operation that has finished. -/
  | done (answer : Answer α)

namespace Operation

variable {α : Type}

/-! ## Steps -/

/-- How a move goes on after an amendment. -/
def afterwards (id : ConnectionId) (p : Passage α) : Amendment → Operation α
  | .leave => .amending p .restore .reaching
  | .restore => .done (.moved true)
  | .retreat => .done (.refused (.concurrentModification id))

/-- Takes the next step of an operation on a connection. -/
def step (id : ConnectionId) : Operation α × ShardRegistry α → Operation α × ShardRegistry α
  | (.move target, r) =>
    match r.placement.get? id with
    | none => (.done (.refused (.notFound id)), r)
    | some source =>
      if source = target then (.done (.moved false), r)
      else
        match r.shards.get? target with
        | none => (.done (.refused (.unknownShard target)), r)
        | some _ => (.located source target, r)
  | (.located source target, r) =>
    match r.memberIn source id with
    | none => (.done (.refused (.concurrentModification id)), r)
    | some member => (.fetched ⟨source, target, member⟩, r)
  | (.fetched p, r) => (.copied p, r.insertInto p.target id p.member)
  | (.copied p, r) =>
    match r.swapPlacement id p.source p.target with
    | (true, r) => (.amending p .leave .reaching, r)
    | (false, r) => (.amending p .retreat .reaching, r)
  | (.amending p a .reaching, r) =>
    -- There is nothing to decide where the member is as the amendment wants it.
    if (r.memberIn (a.shard p) id).isSome = a.restores then (afterwards id p a, r)
    else (.amending p a .holding, r)
  | (.amending p a .holding, r) => (.amending p a (.informed (r.isPlacedIn id (a.shard p))), r)
  | (.amending p a (.informed named), r) =>
    (afterwards id p a, if named = a.restores then a.apply id p r else r)
  | (.remove, r) =>
    match r.placement.get? id with
    | none => (.done (.removed none), r)
    | some shard => (.unindexed shard, { r with placement := r.placement.erase id })
  | (.unindexed shard, r) => (.done (.removed (r.memberIn shard id)), r.takeFrom shard id)
  | (.done answer, r) => (.done answer, r)

/-- The set whose entry the next step reads or writes, or whose entry is held. -/
def place : Operation α → Option ShardId
  | .located source _ => some source
  | .fetched p => some p.target
  | .amending p a _ => some (a.shard p)
  | .unindexed shard => some shard
  | .move _ | .copied _ | .remove | .done _ => none

/-- Whether the operation holds the entry of its set, so that nobody else comes to it. -/
def holds : Operation α → Bool
  | .amending _ _ .holding | .amending _ _ (.informed _) => true
  | _ => false

/-- Whether the operation has finished. -/
def finished : Operation α → Bool
  | .done _ => true
  | _ => false

/-- What the steps of an operation are, each with the registry before and after it. -/
inductive Steps (id : ConnectionId) :
    Operation α → ShardRegistry α → Operation α → ShardRegistry α → Prop
  /-- There is nothing to move, or it is there already, or the target is unknown. -/
  | stay {target : ShardId} {answer : Answer α} {r : ShardRegistry α} :
    Steps id (.move target) r (.done answer) r
  | locate {source target : ShardId} {r : ShardRegistry α}
      (hknown : (r.shards.get? target).isSome) :
    Steps id (.move target) r (.located source target) r
  /-- The member has left the source meanwhile. -/
  | miss {source target : ShardId} {answer : Answer α} {r : ShardRegistry α} :
    Steps id (.located source target) r (.done answer) r
  | fetch {source target : ShardId} {member : α} {r : ShardRegistry α}
      (hmember : r.memberIn source id = some member) :
    Steps id (.located source target) r (.fetched ⟨source, target, member⟩) r
  | copy {p : Passage α} {r : ShardRegistry α} :
    Steps id (.fetched p) r (.copied p) (r.insertInto p.target id p.member)
  | swap {p : Passage α} {r : ShardRegistry α} (hindex : r.placement.get? id = some p.source) :
    Steps id (.copied p) r (.amending p .leave .reaching)
      { r with placement := r.placement.set id p.target }
  /-- The index does not name the source any more. -/
  | lose {p : Passage α} {r : ShardRegistry α} :
    Steps id (.copied p) r (.amending p .retreat .reaching) r
  /-- There is nothing to amend. -/
  | pass {p : Passage α} {a : Amendment} {r : ShardRegistry α}
      (hpresent : (r.memberIn (a.shard p) id).isSome = a.restores) :
    Steps id (.amending p a .reaching) r (afterwards id p a) r
  | grip {p : Passage α} {a : Amendment} {r : ShardRegistry α} :
    Steps id (.amending p a .reaching) r (.amending p a .holding) r
  | look {p : Passage α} {a : Amendment} {r : ShardRegistry α} {named : Bool}
      (hnamed : named = true ↔ r.placement.get? id = some (a.shard p)) :
    Steps id (.amending p a .holding) r (.amending p a (.informed named)) r
  | amend {p : Passage α} {a : Amendment} {r : ShardRegistry α} {named : Bool}
      (hnamed : named = a.restores) :
    Steps id (.amending p a (.informed named)) r (afterwards id p a) (a.apply id p r)
  /-- The set is left as it is. -/
  | spare {p : Passage α} {a : Amendment} {r : ShardRegistry α} {named : Bool}
      (hnamed : named ≠ a.restores) :
    Steps id (.amending p a (.informed named)) r (afterwards id p a) r
  /-- There is nothing to remove. -/
  | lack {answer : Answer α} {r : ShardRegistry α} (hindex : r.placement.get? id = none) :
    Steps id .remove r (.done answer) r
  | unindex {shard : ShardId} {r : ShardRegistry α} (hindex : r.placement.get? id = some shard) :
    Steps id .remove r (.unindexed shard) { r with placement := r.placement.erase id }
  | take {shard : ShardId} {answer : Answer α} {r : ShardRegistry α} :
    Steps id (.unindexed shard) r (.done answer) (r.takeFrom shard id)
  | rest {answer : Answer α} {r : ShardRegistry α} : Steps id (.done answer) r (.done answer) r

/-- The next step is one of them. -/
theorem steps_step (id : ConnectionId) (op : Operation α) (r : ShardRegistry α) :
    Steps id op r (step id (op, r)).1 (step id (op, r)).2 := by
  cases op with
  | move target =>
    cases hindex : r.placement.get? id with
    | none =>
      simp only [step, hindex]
      exact .stay
    | some source =>
      by_cases hsame : source = target
      · simp only [step, hindex, if_pos hsame]
        exact .stay
      · cases hset : r.shards.get? target with
        | none =>
          simp only [step, hindex, if_neg hsame, hset]
          exact .stay
        | some set =>
          simp only [step, hindex, if_neg hsame, hset]
          exact .locate (by rw [hset]; rfl)
  | located source target =>
    cases hmember : r.memberIn source id with
    | none =>
      simp only [step, hmember]
      exact .miss
    | some member =>
      simp only [step, hmember]
      exact .fetch hmember
  | fetched p => exact .copy
  | copied p =>
    by_cases hindex : r.placement.get? id = some p.source
    · have hswap : r.swapPlacement id p.source p.target =
          (true, { r with placement := r.placement.set id p.target }) := by
        rw [ShardRegistry.swapPlacement, ShardRegistry.isPlacedIn, if_pos (decide_eq_true hindex)]
      simp only [step, hswap]
      exact .swap hindex
    · have hswap : r.swapPlacement id p.source p.target = (false, r) := by
        rw [ShardRegistry.swapPlacement, ShardRegistry.isPlacedIn,
          if_neg (by simpa using hindex)]
      simp only [step, hswap]
      exact .lose
  | amending p a g =>
    cases g with
    | reaching =>
      by_cases hpresent : (r.memberIn (a.shard p) id).isSome = a.restores
      · simp only [step, if_pos hpresent]
        exact .pass hpresent
      · simp only [step, if_neg hpresent]
        exact .grip
    | holding => exact .look (by simp [ShardRegistry.isPlacedIn])
    | informed named =>
      by_cases hnamed : named = a.restores
      · simp only [step, if_pos hnamed]
        exact .amend hnamed
      · simp only [step, if_neg hnamed]
        exact .spare hnamed
  | remove =>
    cases hindex : r.placement.get? id with
    | none =>
      simp only [step, hindex]
      exact .lack hindex
    | some shard =>
      simp only [step, hindex]
      exact .unindex hindex
  | unindexed shard => exact .take
  | done answer => exact .rest

/-! ## Undisturbed -/

/-- What an operation comes to that nobody disturbs. -/
abbrev Alone (id : ConnectionId) :
    Operation α × ShardRegistry α → Operation α × ShardRegistry α → Prop :=
  Relation.ReflTransGen fun s s' => step id s = s'

/-- Taking out who is not there changes nothing. -/
theorem takeFrom_of_absent {r : ShardRegistry α} {shard : ShardId} {id : ConnectionId}
    (h : r.memberIn shard id = none) : r.takeFrom shard id = r := by
  unfold ShardRegistry.memberIn at h
  rw [ShardRegistry.takeFrom, Dict.modify]
  cases hset : r.shards.get? shard with
  | none => rfl
  | some set =>
    rw [hset, Option.bind_some] at h
    simp only [Dict.erase_of_get? h, Dict.set_of_get? hset]

/-- An amendment that nobody disturbs does what its condition says. -/
theorem alone_amending (id : ConnectionId) (p : Passage α) (a : Amendment) (r : ShardRegistry α) :
    Alone id (.amending p a .reaching, r)
      (afterwards id p a,
        if (r.memberIn (a.shard p) id).isSome = a.restores then r
        else if r.isPlacedIn id (a.shard p) = a.restores then a.apply id p r else r) := by
  by_cases hpresent : (r.memberIn (a.shard p) id).isSome = a.restores
  · rw [if_pos hpresent]
    refine .single ?_
    rw [step, if_pos hpresent]
  · rw [if_neg hpresent]
    have hreach : step id (.amending p a .reaching, r) = (.amending p a .holding, r) := by
      rw [step, if_neg hpresent]
    exact .head hreach (.head rfl (.single rfl))

theorem alone_taking (id : ConnectionId) (p : Passage α) {a : Amendment} (ha : a.restores = false)
    (r : ShardRegistry α) :
    Alone id (.amending p a .reaching, r)
      (afterwards id p a, r.takeUnlessPlaced (a.shard p) id) := by
  have hresult : (if (r.memberIn (a.shard p) id).isSome = a.restores then r
      else if r.isPlacedIn id (a.shard p) = a.restores then a.apply id p r else r) =
        r.takeUnlessPlaced (a.shard p) id := by
    rw [ShardRegistry.takeUnlessPlaced, Amendment.apply, ha]
    cases hmember : r.memberIn (a.shard p) id with
    | none => cases r.isPlacedIn id (a.shard p) <;> simp [takeFrom_of_absent hmember]
    | some member => cases r.isPlacedIn id (a.shard p) <;> simp
  rw [← hresult]
  exact alone_amending id p a r

theorem alone_restoring (id : ConnectionId) (p : Passage α) (r : ShardRegistry α) :
    Alone id (.amending p .restore .reaching, r)
      (.done (.moved true), r.restoreIfPlaced p.target id p.member) := by
  have hresult : (if (r.memberIn p.target id).isSome = true then r
      else if r.isPlacedIn id p.target = true then r.insertInto p.target id p.member else r) =
        r.restoreIfPlaced p.target id p.member := by
    rw [ShardRegistry.restoreIfPlaced]
    cases r.memberIn p.target id <;> cases r.isPlacedIn id p.target <;> rfl
  rw [← hresult]
  exact alone_amending id p .restore r

/-- A move that nobody disturbs does what the call does. -/
theorem alone_move (id : ConnectionId) (target : ShardId) (r : ShardRegistry α) :
    Alone id (.move target, r)
      (.done (r.call (.move id target)).1, (r.call (.move id target)).2) := by
  rw [ShardRegistry.call, ShardRegistry.move]
  cases hsource : r.placement.get? id with
  | none => exact .single (by rw [step, hsource]; rfl)
  | some source =>
    by_cases hsame : source = target
    · simp only [if_pos hsame]
      refine .single ?_
      rw [step, hsource]
      exact if_pos hsame
    simp only [if_neg hsame]
    cases hset : r.shards.get? target with
    | none =>
      refine .single ?_
      simp only [step, hsource, if_neg hsame, hset]
      rfl
    | some set =>
      have hlocated : step id (.move target, r) = (.located source target, r) := by
        simp only [step, hsource, if_neg hsame, hset]
      refine .head hlocated ?_
      cases hmember : r.memberIn source id with
      | none =>
        refine .single ?_
        rw [step, hmember]
        rfl
      | some member =>
        have hfetched : step id (.located source target, r) =
            (.fetched ⟨source, target, member⟩, r) := by
          rw [step, hmember]
        refine .head hfetched (.head rfl ?_)
        rcases hswap : (r.insertInto target id member).swapPlacement id source target with
          ⟨_ | _, r'⟩
        · have hlost : step id (.copied ⟨source, target, member⟩, r.insertInto target id member) =
              (.amending ⟨source, target, member⟩ .retreat .reaching, r') := by
            rw [step, hswap]
          simp only [hswap]
          exact .head hlost (alone_taking id ⟨source, target, member⟩ rfl r')
        · have hwon : step id (.copied ⟨source, target, member⟩, r.insertInto target id member) =
              (.amending ⟨source, target, member⟩ .leave .reaching, r') := by
            rw [step, hswap]
          simp only [hswap]
          refine .head hwon ?_
          exact (alone_taking id ⟨source, target, member⟩ (a := .leave) rfl r').trans
            (alone_restoring id ⟨source, target, member⟩ _)

/-- A removal that nobody disturbs does what the call does. -/
theorem alone_remove (id : ConnectionId) (r : ShardRegistry α) :
    Alone id (.remove, r) (.done (r.call (.remove id)).1, (r.call (.remove id)).2) := by
  rw [ShardRegistry.call, ShardRegistry.remove]
  cases hshard : r.placement.get? id with
  | none => exact .single (by rw [step, hshard])
  | some shard =>
    have hunindexed : step id (.remove, r) =
        (.unindexed shard, { r with placement := r.placement.erase id }) := by
      rw [step, hshard]
    exact .head hunindexed (.single rfl)

end Operation
end ShardMesh
