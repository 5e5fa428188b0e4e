import ShardMesh.Shard.Registry
import ShardMesh.Proofs.Dict

/-!
# The shard registry as one map

Membership is written down twice, but a registry that is changed by whole calls behaves as a single
map from ids to shards and members: the two records agree between any two calls. `Assignment` is
that map, `Refines` is the agreement, and every call keeps it (`Refines.call`).
-/

namespace ShardMesh

/-! ## Calls and their answers -/

namespace ShardRegistry

/-- A call that may change a registry. -/
inductive Call (α : Type) where
  | configure (map : ShardMap)
  | add (id : ConnectionId) (member : α) (shard : ShardId)
  | move (id : ConnectionId) (target : ShardId)
  | remove (id : ConnectionId)

/-- What a call answers. -/
inductive Answer (α : Type) where
  | done
  /-- A move succeeded, and was a change or not. -/
  | moved (changed : Bool)
  /-- The member that was removed, if there was one. -/
  | removed (member : Option α)
  /-- The call failed. -/
  | refused (error : ProtocolError)

variable {α : Type}

/-- The answer of a call that may fail. -/
def Answer.ofResult {β : Type} (answer : β → Answer α) : Except ProtocolError β → Answer α
  | .ok result => answer result
  | .error e => .refused e

/-- Makes a call. -/
def call (r : ShardRegistry α) : Call α → Answer α × ShardRegistry α
  | .configure map =>
    let (result, r) := r.configure map
    (.ofResult (fun _ => .done) result, r)
  | .add id member shard =>
    let (result, r) := r.add id member shard
    (.ofResult (fun _ => .done) result, r)
  | .move id target =>
    let (result, r) := r.move id target
    (.ofResult .moved result, r)
  | .remove id =>
    let (member, r) := r.remove id
    (.removed member, r)

end ShardRegistry

open ShardRegistry (Call Answer)

/-- Makes calls one after the other on whatever answers calls: the answers, and what has become of
    it. -/
def runCalls {σ α : Type} (call : σ → Call α → Answer α × σ) (s : σ) :
    List (Call α) → List (Answer α) × σ
  | [] => ([], s)
  | c :: cs =>
    let (answer, s) := call s c
    let (answers, s) := runCalls call s cs
    (answer :: answers, s)

/-! ## The map -/

/-- Where each registered member is, and which shards take members at all. -/
structure Assignment (α : Type) where
  /-- The unassigned shard, and the shards of every ownership map that was accepted. -/
  known : List ShardId
  /-- The shard and the member of each registered id. -/
  placed : Dict ConnectionId (ShardId × α)

namespace Assignment

variable {α : Type}

/-- Nothing is registered, and only the unassigned shard is known. -/
def initial : Assignment α := ⟨[unassignedShard], Dict.empty⟩

/-- Calls on the map: adding and moving bind an id anew, removing unbinds it, and a map of ownership
    binds nothing. -/
def call (m : Assignment α) : Call α → Answer α × Assignment α
  | .configure map =>
    match ShardTable.build map with
    | .ok _ => (.done, { m with known := m.known ++ (map.keys ++ [unassignedShard]) })
    | .error e => (.refused e, m)
  | .add id member shard =>
    if shard ∈ m.known then (.done, { m with placed := m.placed.set id (shard, member) })
    else (.refused (.unknownShard shard), m)
  | .move id target =>
    match m.placed.get? id with
    | none => (.refused (.notFound id), m)
    | some (source, member) =>
      if source = target then (.moved false, m)
      else if target ∈ m.known then
        (.moved true, { m with placed := m.placed.set id (target, member) })
      else (.refused (.unknownShard target), m)
  | .remove id => (.removed ((m.placed.get? id).map Prod.snd),
      { m with placed := m.placed.erase id })

end Assignment

/-! ## Atomic steps -/

namespace ShardRegistry

variable {α : Type}

/-- Putting a member into a set makes no shard known and none unknown. -/
@[simp] theorem isSome_insertInto (r : ShardRegistry α) (shard x : ShardId) (id : ConnectionId)
    (member : α) :
    ((r.insertInto shard id member).shards.get? x).isSome = (r.shards.get? x).isSome := by
  simp only [insertInto, Dict.get?_modify]
  split <;> simp

@[simp] theorem isSome_takeFrom (r : ShardRegistry α) (shard x : ShardId) (id : ConnectionId) :
    ((r.takeFrom shard id).shards.get? x).isSome = (r.shards.get? x).isSome := by
  simp only [takeFrom, Dict.get?_modify]
  split <;> simp

/-- In a known shard a member is found where it was put; nobody else is touched. -/
theorem memberIn_insertInto {r : ShardRegistry α} {shard : ShardId}
    (hknown : (r.shards.get? shard).isSome) (id : ConnectionId) (member : α) (shard' : ShardId)
    (id' : ConnectionId) :
    (r.insertInto shard id member).memberIn shard' id' =
      if shard = shard' ∧ id = id' then some member else r.memberIn shard' id' := by
  simp only [memberIn, insertInto, Dict.get?_modify]
  by_cases hshard : shard = shard'
  · subst hshard
    obtain ⟨set, hset⟩ := Option.isSome_iff_exists.mp hknown
    simp [hset]
  · simp [hshard]

theorem memberIn_takeFrom (r : ShardRegistry α) (shard : ShardId) (id : ConnectionId)
    (shard' : ShardId) (id' : ConnectionId) :
    (r.takeFrom shard id).memberIn shard' id' =
      if shard = shard' ∧ id = id' then none else r.memberIn shard' id' := by
  simp only [memberIn, takeFrom, Dict.get?_modify]
  by_cases hshard : shard = shard'
  · subst hshard
    cases r.shards.get? shard <;> simp
  · simp [hshard]

/-- Making a shard known adds a set without members. -/
theorem know_spec (r : ShardRegistry α) (shard : ShardId) :
    (r.know shard).placement = r.placement ∧
      (∀ x, ((r.know shard).shards.get? x).isSome ↔ (r.shards.get? x).isSome ∨ x = shard) ∧
      ∀ x id, (r.know shard).memberIn x id = r.memberIn x id := by
  unfold know
  split
  · rename_i set hset
    refine ⟨rfl, fun x => ⟨.inl, ?_⟩, fun _ _ => rfl⟩
    rintro (h | rfl)
    · exact h
    · rw [hset]
      rfl
  · rename_i hnone
    refine ⟨rfl, fun x => ?_, fun x id => ?_⟩
    · rw [Dict.get?_set]
      split
      · exact iff_of_true rfl (.inr (Eq.symm ‹_›))
      · exact (or_iff_left (Ne.symm ‹_›)).symm
    · by_cases hx : shard = x
      · subst hx
        simp [memberIn, hnone]
      · simp [memberIn, hx]

theorem foldl_know_spec (r : ShardRegistry α) (shards : List ShardId) :
    (shards.foldl know r).placement = r.placement ∧
      (∀ x, ((shards.foldl know r).shards.get? x).isSome ↔
        (r.shards.get? x).isSome ∨ x ∈ shards) ∧
      ∀ x id, (shards.foldl know r).memberIn x id = r.memberIn x id := by
  induction shards generalizing r with
  | nil => simp
  | cons shard shards ih =>
    obtain ⟨hplacement, hknown, hmember⟩ := know_spec r shard
    obtain ⟨hplacement', hknown', hmember'⟩ := ih (r.know shard)
    refine ⟨hplacement'.trans hplacement, fun x => ?_, fun x id => ?_⟩
    · rw [List.foldl_cons, hknown', hknown, List.mem_cons, or_assoc]
    · rw [List.foldl_cons, hmember', hmember]

/-! ## Agreement -/

/-- A registry says what a map says, in both of its records. -/
structure Refines (r : ShardRegistry α) (m : Assignment α) : Prop where
  /-- The shards that have a set are the known ones. -/
  known : ∀ shard, (r.shards.get? shard).isSome ↔ shard ∈ m.known
  /-- The index names the shard of every id. -/
  index : ∀ id, r.placement.get? id = (m.placed.get? id).map Prod.fst
  /-- A set has the members of its shard. -/
  member : ∀ shard id member,
    r.memberIn shard id = some member ↔ m.placed.get? id = some (shard, member)

theorem refines_initial : Refines (empty : ShardRegistry α) .initial := by
  have hget (shard : ShardId) : (empty : ShardRegistry α).shards.get? shard =
      if unassignedShard = shard then some Dict.empty else none := Dict.get?_set ..
  constructor
  · intro shard
    rw [hget, Assignment.initial, List.mem_singleton]
    split
    · exact iff_of_true rfl (Eq.symm ‹_›)
    · exact iff_of_false Bool.false_ne_true (Ne.symm ‹_›)
  · intro id
    rfl
  · intro shard id member
    rw [memberIn, hget]
    split <;> simp [Assignment.initial]

/-- A shard that becomes known has no members yet. -/
theorem Refines.know {r : ShardRegistry α} {m : Assignment α} (h : Refines r m) (shard : ShardId) :
    Refines (r.know shard) { m with known := m.known ++ [shard] } := by
  obtain ⟨hplacement, hknown, hmember⟩ := know_spec r shard
  refine ⟨fun x => ?_, fun id => ?_, fun x id member => ?_⟩
  · rw [hknown, h.known, List.mem_append, List.mem_singleton]
  · rw [hplacement, h.index]
  · rw [hmember, h.member]

/-- A registry after an id was placed: the index names the shard for it, the set of the shard has
    the member under it, and the set that had it before has it no longer. -/
structure Placed (r r' : ShardRegistry α) (id : ConnectionId) (member : α) (shard : ShardId) :
    Prop where
  known : ∀ x, (r'.shards.get? x).isSome = (r.shards.get? x).isSome
  index : ∀ x, r'.placement.get? x = if id = x then some shard else r.placement.get? x
  member : ∀ x id', r'.memberIn x id' =
    if shard = x ∧ id = id' then some member
    else if id = id' ∧ r.placement.get? id = some x then none
    else r.memberIn x id'

/-- Placing an id in the registry is binding it in the map. -/
theorem Refines.placed {r r' : ShardRegistry α} {m : Assignment α} (h : Refines r m)
    {id : ConnectionId} {member : α} {shard : ShardId} (hplaced : Placed r r' id member shard) :
    Refines r' { m with placed := m.placed.set id (shard, member) } := by
  constructor
  · intro x
    rw [hplaced.known, h.known]
  · intro x
    rw [hplaced.index, h.index, Dict.get?_set]
    split <;> rfl
  · intro x id' member'
    rw [hplaced.member, Dict.get?_set]
    by_cases hid : id = id'
    · subst hid
      by_cases hx : shard = x
      · simp [hx]
      · -- the id was in the set of `x` only if the index named `x`
        have hgone : r.placement.get? id ≠ some x → r.memberIn x id ≠ some member' := by
          intro hindex hmember
          rw [h.index, (h.member x id member').mp hmember] at hindex
          exact hindex rfl
        by_cases hindex : r.placement.get? id = some x
        · simp [hx, hindex]
        · simpa [hx, hindex] using hgone hindex
    · simp [hid, h.member]

/-- Binding an id in the index of a registry that has the member in the set of the shard. -/
theorem placed_of_insertInto {r : ShardRegistry α} {shard : ShardId}
    (hknown : (r.shards.get? shard).isSome) (id : ConnectionId) (member : α)
    (hindex : ∀ x, r.placement.get? id = some x → x = shard) :
    Placed r { r.insertInto shard id member with placement := r.placement.set id shard }
      id member shard := by
  constructor
  · intro x
    exact isSome_insertInto ..
  · intro x
    exact Dict.get?_set ..
  · intro x id'
    have hmember := memberIn_insertInto hknown id member x id'
    by_cases hhere : shard = x ∧ id = id'
    · rw [if_pos hhere] at hmember ⊢
      exact hmember
    · rw [if_neg hhere] at hmember ⊢
      have helse : ¬ (id = id' ∧ r.placement.get? id = some x) :=
        fun hold => hhere ⟨(hindex x hold.2).symm, hold.1⟩
      rw [if_neg helse]
      exact hmember

/-- The same where another shard had the id, and its set gives it up. -/
theorem placed_of_takeFrom {r : ShardRegistry α} {shard old : ShardId}
    (hknown : (r.shards.get? shard).isSome) (id : ConnectionId) (member : α)
    (hindex : r.placement.get? id = some old) (hne : old ≠ shard) :
    Placed r (takeFrom { r.insertInto shard id member with placement := r.placement.set id shard }
      old id) id member shard := by
  constructor
  · intro x
    rw [isSome_takeFrom]
    exact isSome_insertInto ..
  · intro x
    exact Dict.get?_set ..
  · intro x id'
    have hmember := memberIn_insertInto hknown id member x id'
    rw [memberIn_takeFrom, hindex]
    by_cases hold : old = x ∧ id = id'
    · have hhere : ¬ (shard = x ∧ id = id') := fun hhere => hne (hold.1.trans hhere.1.symm)
      rw [if_pos hold, if_neg hhere, if_pos ⟨hold.2, congrArg some hold.1⟩]
    · have helse : ¬ (id = id' ∧ some old = some x) :=
        fun h => hold ⟨Option.some.inj h.2, h.1⟩
      rw [if_neg hold, if_neg helse]
      exact hmember

/-- Unbinding an id that is not bound changes nothing. -/
theorem Refines.erase_of_none {r : ShardRegistry α} {m : Assignment α} (h : Refines r m)
    {id : ConnectionId} (hget : m.placed.get? id = none) :
    Refines r { m with placed := m.placed.erase id } := by
  have hsame (x : ConnectionId) : (m.placed.erase id).get? x = m.placed.get? x := by
    rw [Dict.get?_erase]
    split
    · rename_i hx
      rw [← hx, hget]
    · rfl
  constructor
  · exact h.known
  · intro x
    rw [hsame]
    exact h.index x
  · intro shard x member
    rw [hsame]
    exact h.member shard x member

/-- An id that leaves the index and the set that had it is not bound any more. -/
theorem Refines.removed {r : ShardRegistry α} {m : Assignment α} (h : Refines r m)
    {id : ConnectionId} {entry : ShardId × α} (hget : m.placed.get? id = some entry) :
    Refines (takeFrom { r with placement := r.placement.erase id } entry.1 id)
      { m with placed := m.placed.erase id } := by
  constructor
  · intro x
    rw [isSome_takeFrom]
    exact h.known x
  · intro x
    show (r.placement.erase id).get? x = _
    rw [Dict.get?_erase, Dict.get?_erase, h.index]
    split <;> rfl
  · intro shard x member
    rw [memberIn_takeFrom, Dict.get?_erase]
    show (if _ then none else r.memberIn shard x) = some member ↔ _
    by_cases hx : id = x
    · subst hx
      -- no set but that of its shard had the id
      have hgone : entry.1 ≠ shard → r.memberIn shard id ≠ some member := by
        intro hne hmember
        rw [(h.member shard id member).mp hmember] at hget
        exact hne (congrArg Prod.fst (Option.some.inj hget)).symm
      by_cases hsource : entry.1 = shard
      · simp [hsource]
      · simpa [hsource] using hgone hsource
    · simpa [hx] using h.member shard x member

/-! ## Calls -/

theorem call_configure {r : ShardRegistry α} {m : Assignment α} (h : Refines r m) (map : ShardMap) :
    (r.call (.configure map)).1 = (m.call (.configure map)).1 ∧
      Refines (r.call (.configure map)).2 (m.call (.configure map)).2 := by
  simp only [call, configure, Assignment.call]
  cases ShardTable.build map with
  | error e => exact ⟨rfl, h⟩
  | ok table =>
    obtain ⟨hplacement, hknown, hmember⟩ := foldl_know_spec r (map.keys ++ [unassignedShard])
    refine ⟨rfl, fun shard => ?_, fun id => ?_, fun shard id member => ?_⟩
    · rw [List.mem_append, ← h.known]
      exact hknown shard
    · rw [← h.index]
      exact congrArg (·.get? id) hplacement
    · rw [← h.member, ← hmember]
      rfl

theorem call_add {r : ShardRegistry α} {m : Assignment α} (h : Refines r m) (id : ConnectionId)
    (member : α) (shard : ShardId) :
    (r.call (.add id member shard)).1 = (m.call (.add id member shard)).1 ∧
      Refines (r.call (.add id member shard)).2 (m.call (.add id member shard)).2 := by
  simp only [call, add, Assignment.call]
  by_cases hknown : shard ∈ m.known
  · have hset := (h.known shard).mpr hknown
    obtain ⟨set, hget⟩ := Option.isSome_iff_exists.mp hset
    rw [hget, if_pos hknown]
    dsimp only
    cases hindex : r.placement.get? id with
    | none =>
      exact ⟨rfl, h.placed (placed_of_insertInto hset id member (by simp [hindex]))⟩
    | some old =>
      dsimp only
      by_cases hold : old = shard
      · rw [if_pos hold]
        exact ⟨rfl, h.placed (placed_of_insertInto hset id member (by simp [hindex, hold]))⟩
      · rw [if_neg hold]
        exact ⟨rfl, h.placed (placed_of_takeFrom hset id member hindex hold)⟩
  · have hnone : r.shards.get? shard = none :=
      Option.not_isSome_iff_eq_none.mp (mt (h.known shard).mp hknown)
    rw [hnone, if_neg hknown]
    exact ⟨rfl, h⟩

/-- A move between two shards ends where adding the member to the target ends: the index still names
    the source when it is changed, and the target still has the member in the end. -/
theorem move_eq {r : ShardRegistry α} {id : ConnectionId} {source target : ShardId} {member : α}
    (hindex : r.placement.get? id = some source) (hne : source ≠ target)
    (hknown : (r.shards.get? target).isSome) (hmember : r.memberIn source id = some member) :
    r.move id target = (.ok true, takeFrom
      { r.insertInto target id member with placement := r.placement.set id target } source id) := by
  obtain ⟨set, hget⟩ := Option.isSome_iff_exists.mp hknown
  have hplaced := placed_of_takeFrom hknown id member hindex hne
  have hexpected : (r.insertInto target id member).isPlacedIn id source = true := by
    simp [isPlacedIn, insertInto, hindex]
  have hleft : isPlacedIn { r.insertInto target id member with
      placement := r.placement.set id target } id source = false := by
    simp [isPlacedIn, Ne.symm hne]
  have harrived : (takeFrom { r.insertInto target id member with
      placement := r.placement.set id target } source id).memberIn target id = some member := by
    rw [hplaced.member, if_pos ⟨rfl, rfl⟩]
  simp only [move, hindex, if_neg hne, hget, hmember, swapPlacement, hexpected, if_true]
  show (Except.ok true, restoreIfPlaced (takeUnlessPlaced { r.insertInto target id member with
    placement := r.placement.set id target } source id) target id member) = _
  rw [takeUnlessPlaced, hleft, if_neg Bool.false_ne_true, restoreIfPlaced, harrived]
  rfl

theorem call_move {r : ShardRegistry α} {m : Assignment α} (h : Refines r m) (id : ConnectionId)
    (target : ShardId) :
    (r.call (.move id target)).1 = (m.call (.move id target)).1 ∧
      Refines (r.call (.move id target)).2 (m.call (.move id target)).2 := by
  have hindex := h.index id
  simp only [call, Assignment.call]
  cases hget : m.placed.get? id with
  | none =>
    rw [hget] at hindex
    simp only [move, hindex, Option.map_none]
    exact ⟨rfl, h⟩
  | some entry =>
    obtain ⟨source, member⟩ := entry
    rw [hget, Option.map_some] at hindex
    have hmember := (h.member source id member).mpr hget
    dsimp only
    by_cases hne : source = target
    · simp only [move, hindex, if_pos hne]
      exact ⟨rfl, h⟩
    · rw [if_neg hne]
      by_cases hknown : target ∈ m.known
      · have hset := (h.known target).mpr hknown
        rw [if_pos hknown, move_eq hindex hne hset hmember]
        exact ⟨rfl, h.placed (placed_of_takeFrom hset id member hindex hne)⟩
      · have hnone : r.shards.get? target = none :=
          Option.not_isSome_iff_eq_none.mp (mt (h.known target).mp hknown)
        simp only [move, hindex, if_neg hne, hnone, if_neg hknown]
        exact ⟨rfl, h⟩

theorem call_remove {r : ShardRegistry α} {m : Assignment α} (h : Refines r m) (id : ConnectionId) :
    (r.call (.remove id)).1 = (m.call (.remove id)).1 ∧
      Refines (r.call (.remove id)).2 (m.call (.remove id)).2 := by
  have hindex := h.index id
  simp only [call, remove, Assignment.call]
  cases hget : m.placed.get? id with
  | none =>
    rw [hget] at hindex
    simp only [hindex, Option.map_none]
    exact ⟨trivial, h.erase_of_none hget⟩
  | some entry =>
    rw [hget, Option.map_some] at hindex
    simp only [hindex, Option.map_some]
    exact ⟨congrArg Answer.removed ((h.member entry.1 id entry.2).mpr hget), h.removed hget⟩

/-- Every call has the same answer on the registry and on the map, and both agree afterwards. -/
theorem Refines.call {r : ShardRegistry α} {m : Assignment α} (h : Refines r m) (c : Call α) :
    (r.call c).1 = (m.call c).1 ∧ Refines (r.call c).2 (m.call c).2 := by
  cases c with
  | configure map => exact call_configure h map
  | add id member shard => exact call_add h id member shard
  | move id target => exact call_move h id target
  | remove id => exact call_remove h id

/-- The same holds of any number of calls. -/
theorem Refines.runCalls {r : ShardRegistry α} {m : Assignment α} (h : Refines r m)
    (calls : List (Call α)) :
    (ShardMesh.runCalls ShardRegistry.call r calls).1 =
        (ShardMesh.runCalls Assignment.call m calls).1 ∧
      Refines (ShardMesh.runCalls ShardRegistry.call r calls).2
        (ShardMesh.runCalls Assignment.call m calls).2 := by
  induction calls generalizing r m with
  | nil => exact ⟨rfl, h⟩
  | cons c calls ih =>
    obtain ⟨hanswer, hnext⟩ := h.call c
    obtain ⟨hanswers, hlast⟩ := ih hnext
    exact ⟨List.cons_eq_cons.mpr ⟨hanswer, hanswers⟩, hlast⟩

/-- A call that fails leaves the registry as it is. A move does so because between two calls it is
    never late: the index still names the shard that it named at the beginning. -/
theorem Refines.unchanged_of_refused {r : ShardRegistry α} {m : Assignment α} (h : Refines r m)
    {c : Call α} {e : ProtocolError} (hrefused : (r.call c).1 = .refused e) : (r.call c).2 = r := by
  cases c with
  | configure map =>
    simp only [ShardRegistry.call, configure] at hrefused ⊢
    cases hbuild : ShardTable.build map with
    | error e => rfl
    | ok table => rw [hbuild] at hrefused; cases hrefused
  | add id member shard =>
    simp only [ShardRegistry.call, add] at hrefused ⊢
    cases hshard : r.shards.get? shard with
    | none => rfl
    | some set =>
      rw [hshard] at hrefused
      dsimp only at hrefused
      split at hrefused <;> cases hrefused
  | move id target =>
    have hindex := h.index id
    simp only [ShardRegistry.call] at hrefused ⊢
    cases hget : m.placed.get? id with
    | none =>
      rw [hget] at hindex
      simp only [move, hindex, Option.map_none]
    | some entry =>
      obtain ⟨source, member⟩ := entry
      rw [hget, Option.map_some] at hindex
      by_cases hne : source = target
      · simp only [move, hindex, if_pos hne]
      · cases hshard : r.shards.get? target with
        | none => simp only [move, hindex, if_neg hne, hshard]
        | some set =>
          rw [move_eq hindex hne (by rw [hshard]; rfl) ((h.member source id member).mpr hget)]
            at hrefused
          cases hrefused
  | remove id => cases hrefused

/-! ## Questions -/

theorem Refines.member? {r : ShardRegistry α} {m : Assignment α} (h : Refines r m)
    (id : ConnectionId) : r.member? id = (m.placed.get? id).map Prod.snd := by
  rw [ShardRegistry.member?, shardOf, h.index]
  cases hget : m.placed.get? id with
  | none => rfl
  | some entry => exact (h.member entry.1 id entry.2).mpr hget

theorem Refines.keys_perm {r : ShardRegistry α} {m : Assignment α} (h : Refines r m) :
    r.placement.keys.Perm m.placed.keys := by
  refine Dict.keys_perm fun id => ?_
  rw [h.index, Option.isSome_map]

/-- All members are those of the map. -/
theorem Refines.members_perm {r : ShardRegistry α} {m : Assignment α} (h : Refines r m) :
    r.members.Perm (m.placed.values.map Prod.snd) := by
  have hmember : r.member? = fun id => (m.placed.get? id).map Prod.snd := funext h.member?
  have hvalues : m.placed.keys.filterMap r.member? = m.placed.values.map Prod.snd := by
    have hlook : m.placed.keys.filterMap (fun id => (m.placed.get? id).map Prod.snd) =
        (m.placed.keys.map m.placed.get?).filterMap (Option.map Prod.snd) := by
      rw [List.filterMap_map]
      rfl
    rw [hmember, hlook, Dict.map_get?_keys, List.filterMap_map, ← List.filterMap_eq_map]
    rfl
  rw [← hvalues]
  exact h.keys_perm.filterMap _

/-- The bindings of one shard in the map, without the shard. -/
def bindingsOf (m : Assignment α) (shard : ShardId) : List (ConnectionId × α) :=
  (m.placed.entries.filter fun e => e.2.1 = shard).map fun e => (e.1, e.2.2)

theorem mem_bindingsOf {m : Assignment α} {shard : ShardId} {id : ConnectionId} {member : α} :
    (id, member) ∈ bindingsOf m shard ↔ m.placed.get? id = some (shard, member) := by
  rw [← Dict.mem_entries]
  constructor
  · intro h
    obtain ⟨⟨id', shard', member'⟩, hmem, heq⟩ := List.mem_map.mp h
    obtain ⟨hentry, hshard⟩ := List.mem_filter.mp hmem
    cases heq
    rw [← of_decide_eq_true hshard]
    exact hentry
  · intro h
    exact List.mem_map.mpr ⟨_, List.mem_filter.mpr ⟨h, decide_eq_true rfl⟩, rfl⟩

theorem nodup_bindingsOf (m : Assignment α) (shard : ShardId) :
    ((bindingsOf m shard).map Prod.fst).Nodup := by
  rw [bindingsOf, List.map_map]
  exact m.placed.nodup.sublist (List.filter_sublist.map Prod.fst)

/-- The members of a shard are those that the map has for the shard. -/
theorem Refines.membersIn_perm {r : ShardRegistry α} {m : Assignment α} (h : Refines r m)
    (shard : ShardId) :
    (r.membersIn shard).Perm ((m.placed.values.filter (·.1 = shard)).map Prod.snd) := by
  have hvalues : (m.placed.values.filter (·.1 = shard)).map Prod.snd =
      (bindingsOf m shard).map Prod.snd := by
    rw [Dict.values, List.filter_map, List.map_map, bindingsOf, List.map_map]
    rfl
  have hmember := h.member shard
  rw [hvalues, membersIn]
  cases hset : r.shards.get? shard with
  | none =>
    have hempty : bindingsOf m shard = [] := by
      refine List.eq_nil_iff_forall_not_mem.mpr fun e he => ?_
      have hin := (hmember e.1 e.2).mpr (mem_bindingsOf.mp he)
      rw [memberIn, hset] at hin
      cases hin
    rw [hempty]
    exact List.Perm.nil
  | some set =>
    refine List.Perm.map Prod.snd (Dict.perm_of_mem_iff set.nodup (nodup_bindingsOf m shard) ?_)
    intro e
    rw [show e = (e.1, e.2) from rfl, mem_bindingsOf, ← hmember, memberIn, hset, Dict.mem_entries]
    rfl

/-- A registry is one map from ids to shards and members. Whatever calls are made on an empty
    registry, they have the answers that they have on the map, and afterwards every question is
    answered as the map says, up to the order in which members are listed. An id is in the set of a
    shard exactly if the index names this shard for it, and a call that fails changes nothing. -/
theorem runCalls_eq_map (calls : List (Call α)) :
    let (answers, r) := ShardMesh.runCalls call empty calls
    let (expected, m) := ShardMesh.runCalls Assignment.call .initial calls
    answers = expected ∧
    (∀ id, r.shardOf id = (m.placed.get? id).map Prod.fst) ∧
    (∀ id, r.member? id = (m.placed.get? id).map Prod.snd) ∧
    r.size = m.placed.size ∧
    r.members.Perm (m.placed.values.map Prod.snd) ∧
    (∀ shard, (r.membersIn shard).Perm
      ((m.placed.values.filter (·.1 = shard)).map Prod.snd)) ∧
    (∀ shard id, (r.memberIn shard id).isSome ↔ r.shardOf id = some shard) ∧
    ∀ c e, (r.call c).1 = .refused e → (r.call c).2 = r := by
  obtain ⟨hanswers, h⟩ := refines_initial.runCalls calls
  refine ⟨hanswers, h.index, h.member?, ?_, h.members_perm, h.membersIn_perm, fun shard id => ?_,
    fun c e => h.unchanged_of_refused⟩
  · have hlength := h.keys_perm.length_eq
    rwa [Dict.keys, Dict.keys, List.length_map, List.length_map] at hlength
  · rw [shardOf, h.index, Option.isSome_iff_exists]
    constructor
    · rintro ⟨member, hmember⟩
      rw [(h.member shard id member).mp hmember]
      rfl
    · intro hshard
      obtain ⟨entry, hentry, rfl⟩ := Option.map_eq_some_iff.mp hshard
      exact ⟨entry.2, (h.member entry.1 id entry.2).mpr hentry⟩

end ShardRegistry
end ShardMesh
