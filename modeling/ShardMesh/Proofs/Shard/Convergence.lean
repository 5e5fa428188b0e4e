import Mathlib.Algebra.GroupWithZero.Nat
import ShardMesh.Proofs.Shard.Responsibility

/-!
# Moves and removals beside each other

Any number of moves and removals of one connection take their steps in any order; only an operation
that comes to an entry which another one holds has to wait. An operation acts on what it saw in the
index a step before. That is sound because it holds the entry of the set in between: the index may
change again, but then whoever changed it answers for the entry, and has to come to it later. When all
operations have finished nobody answers for anything, and the sets agree with the index.
-/

namespace ShardMesh

/-- What is asked for a connection. -/
inductive Request where
  | move (target : ShardId)
  | remove
  deriving DecidableEq, Repr

/-- The operation that does what is asked. -/
def Request.begin {α : Type} : Request → Operation α
  | .move target => .move target
  | .remove => .remove

/-- Operations on one connection, beside each other. -/
structure Crowd (α : Type) where
  registry : ShardRegistry α
  operations : List (Operation α)

namespace Crowd

variable {α : Type}

/-- The operations that do what is asked, before their first steps. -/
def start (r : ShardRegistry α) (requests : List Request) : Crowd α :=
  ⟨r, requests.map Request.begin⟩

/-- Whether an operation has to wait, as another one holds the entry that it comes to. -/
def bars (x : Crowd α) (op : Operation α) : Bool :=
  !op.holds && x.operations.any fun other => other.holds && other.place = op.place

/-- One operation takes a step, if it need not wait. -/
def turn (id : ConnectionId) (x : Crowd α) (i : Nat) : Crowd α :=
  match x.operations[i]? with
  | none => x
  | some op =>
    if x.bars op then x
    else
      let (op, registry) := Operation.step id (op, x.registry)
      ⟨registry, x.operations.set i op⟩

/-- What becomes of the operations that take steps in some order. -/
def run (id : ConnectionId) (x : Crowd α) (turns : List Nat) : Crowd α := turns.foldl (turn id) x

/-- Whether all operations have finished. -/
def finished (x : Crowd α) : Bool := x.operations.all (·.finished)

/-! ## Turns -/

/-- An operation takes a step. -/
structure Turned (id : ConnectionId) (x : Crowd α) (i : Nat) (op op' : Operation α)
    (r' : ShardRegistry α) : Prop where
  here : x.operations[i]? = some op
  free : x.bars op = false
  steps : op.Steps id x.registry op' r'

theorem turned (id : ConnectionId) {x : Crowd α} {i : Nat} {op : Operation α}
    (here : x.operations[i]? = some op) (free : x.bars op = false) :
    ∃ op' r', Turned id x i op op' r' ∧ x.turn id i = ⟨r', x.operations.set i op'⟩ := by
  refine ⟨_, _, ⟨here, free, op.steps_step id x.registry⟩, ?_⟩
  rw [turn, here]
  simp only [free, Bool.false_eq_true, if_false]

theorem turn_cases (id : ConnectionId) (x : Crowd α) (i : Nat) :
    x.turn id i = x ∨
      ∃ op op' r', Turned id x i op op' r' ∧ x.turn id i = ⟨r', x.operations.set i op'⟩ := by
  cases here : x.operations[i]? with
  | none => exact .inl (by rw [turn, here])
  | some op =>
    cases free : x.bars op with
    | true =>
      refine .inl ?_
      rw [turn, here]
      simp only [free, if_true]
    | false => exact .inr ⟨op, turned id here free⟩

section Beside

variable {id : ConnectionId} {x : Crowd α} {i : Nat} {op op' o : Operation α}
  {r' : ShardRegistry α}

theorem Turned.mem (t : Turned id x i op op' r') : op ∈ x.operations :=
  List.mem_of_getElem? t.here

theorem getElem?_operations (t : Turned id x i op op' r') (j : Nat) :
    (x.operations.set i op')[j]? = if j = i then some op' else x.operations[j]? := by
  have hlt : i < x.operations.length := (List.getElem?_eq_some_iff.mp t.here).1
  by_cases hj : j = i
  · subst hj
    rw [List.getElem?_set_self hlt, if_pos rfl]
  · rw [List.getElem?_set_ne (Ne.symm hj), if_neg hj]

/-- After a turn there are the operation that took a step and those beside it. -/
theorem mem_operations (t : Turned id x i op op' r') :
    o ∈ x.operations.set i op' ↔ o = op' ∨ ∃ j, j ≠ i ∧ x.operations[j]? = some o := by
  rw [List.mem_iff_getElem?]
  constructor
  · rintro ⟨j, hj⟩
    rw [getElem?_operations t] at hj
    split at hj
    · exact .inl (Option.some.inj hj).symm
    · exact .inr ⟨j, ‹_›, hj⟩
  · rintro (rfl | ⟨j, hne, hj⟩)
    · exact ⟨i, by rw [getElem?_operations t, if_pos rfl]⟩
    · exact ⟨j, by rw [getElem?_operations t, if_neg hne, hj]⟩

theorem eq_or_mem_operations (t : Turned id x i op op' r') (h : o ∈ x.operations) :
    o = op ∨ o ∈ x.operations.set i op' := by
  obtain ⟨j, hj⟩ := List.mem_iff_getElem?.mp h
  by_cases hne : j = i
  · subst hne
    exact .inl (Option.some.inj (hj.symm.trans t.here))
  · exact .inr ((mem_operations t).mpr (.inr ⟨j, hne, hj⟩))

end Beside

/-! ## Responsibility -/

/-- A copy in the set of a shard is in its place, or some operation is to take it out. -/
def Covered (id : ConnectionId) (x : Crowd α) (s : ShardId) : Prop :=
  x.registry.placement.get? id = some s ∨ ∃ op ∈ x.operations, op.owes s

/-- If the index names a shard, some operation is to bring the member back into its set. -/
def Backed (id : ConnectionId) (x : Crowd α) (s : ShardId) : Prop :=
  x.registry.placement.get? id = some s → ∃ op ∈ x.operations, op.backs s

section Turns

variable {id : ConnectionId} {x : Crowd α} {i : Nat} {op op' : Operation α}
  {r' : ShardRegistry α} {s : ShardId}

theorem Covered.turn (h : x.Covered id s) (t : Turned id x i op op' r') :
    Covered id ⟨r', x.operations.set i op'⟩ s ∨ (r'.memberIn s id = none ∧ op.place = some s) := by
  have hself : op' ∈ x.operations.set i op' := (mem_operations t).mpr (.inl rfl)
  have hstep (hs : x.registry.placement.get? id = some s ∨ op.owes s) :
      Covered id ⟨r', x.operations.set i op'⟩ s ∨
        (r'.memberIn s id = none ∧ op.place = some s) :=
    (t.steps.covered hs).imp_left fun hs => hs.imp_right fun howes => ⟨op', hself, howes⟩
  rcases h with hindex | ⟨o, ho, howes⟩
  · exact hstep (.inl hindex)
  · rcases eq_or_mem_operations t ho with rfl | ho
    · exact hstep (.inr howes)
    · exact .inl (.inr ⟨o, ho, howes⟩)

theorem Backed.turn (h : x.Backed id s) (t : Turned id x i op op' r')
    (hknown : ∀ s, op.target? = some s → (x.registry.shards.get? s).isSome) :
    Backed id ⟨r', x.operations.set i op'⟩ s ∨
      ((r'.memberIn s id).isSome ∧ op.place = some s) := by
  have hself : op' ∈ x.operations.set i op' := (mem_operations t).mpr (.inl rfl)
  by_cases hindex : r'.placement.get? id = some s
  · rcases t.steps.backed hknown hindex with hbacks | ⟨hbefore, hnot⟩ | hput
    · exact .inl fun _ => ⟨op', hself, hbacks⟩
    · obtain ⟨o, ho, hbacks⟩ := h hbefore
      rcases eq_or_mem_operations t ho with rfl | ho
      · exact absurd hbacks hnot
      · exact .inl fun _ => ⟨o, ho, hbacks⟩
    · exact .inr hput
  · exact .inl fun hs => absurd hs hindex

end Turns

/-! ## What is always so -/

/-- What is so at any time when operations on a registry do what was asked. -/
structure Sound (id : ConnectionId) (r : ShardRegistry α) (requests : List Request) (x : Crowd α) :
    Prop where
  /-- An entry is held by one operation at most. -/
  exclusive : ∀ (i j : Nat) (o o' : Operation α), x.operations[i]? = some o → x.operations[j]? = some o' →
    o.holds = true → o'.holds = true → o.place = o'.place → i = j
  known : ∀ o ∈ x.operations, ∀ s, o.target? = some s → (x.registry.shards.get? s).isSome
  /-- All copies are the member that was registered. -/
  carried : ∀ o ∈ x.operations, ∀ m, o.member? = some m → r.member? id = some m
  member : ∀ s m, x.registry.memberIn s id = some m → r.member? id = some m
  /-- Every copy is answered for. -/
  covered : ∀ s, (x.registry.memberIn s id).isSome → x.Covered id s
  /-- Every lack of the member is answered for. -/
  backed : ∀ s, x.registry.memberIn s id = none → x.Backed id s
  /-- Whoever is about to put the member into a set leaves no copy that nobody answers for. -/
  filling : ∀ o ∈ x.operations, ∀ s, o.decided true s → x.Covered id s
  /-- Whoever is about to take the member out of a set leaves no lack that nobody answers for. -/
  emptying : ∀ o ∈ x.operations, ∀ s, o.decided false s → x.Backed id s
  unindexed : ∀ s, Operation.unindexed s ∈ x.operations → x.registry.placement.get? id = none
  /-- A removal has yet to begin, or the connection is out of the index. -/
  removed : ∀ i : Nat, requests[i]? = some Request.remove →
    x.operations[i]? = some Operation.remove ∨ x.registry.placement.get? id = none
  removal : Operation.remove ∈ x.operations → Request.remove ∈ requests
  /-- Only a removal takes the connection out of the index. -/
  indexed : x.registry.placement.get? id = none →
    r.placement.get? id = none ∨ Request.remove ∈ requests
  /-- Nobody brings it back there. -/
  absent : r.placement.get? id = none → x.registry.placement.get? id = none

theorem begin_spec (request : Request) :
    (request.begin : Operation α).holds = false ∧ (request.begin : Operation α).target? = none ∧
      (request.begin : Operation α).member? = none ∧
      (∀ restores s, ¬ (request.begin : Operation α).decided restores s) ∧
      (∀ s, (request.begin : Operation α) ≠ .unindexed s) := by
  cases request <;> simp [Request.begin, Operation.holds, Operation.target?, Operation.member?,
    Operation.decided]

theorem sound_start {id : ConnectionId} {r : ShardRegistry α}
    (hplaced : ∀ s, (r.memberIn s id).isSome ↔ r.placement.get? id = some s)
    (requests : List Request) : Sound id r requests (start r requests) := by
  have hbegun : ∀ o ∈ (start r requests).operations, ∃ request : Request, request.begin = o :=
    fun o ho => (List.mem_map.mp ho).imp fun _ h => h.2
  refine
    { exclusive := fun i j o o' hi _ hholds _ _ => ?_
      known := fun o ho s hs => ?_
      carried := fun o ho m hm => ?_
      member := fun s m hm => ?_
      covered := fun s hs => .inl ((hplaced s).mp hs)
      backed := fun s hs hindex => ?_
      filling := fun o ho s hs => ?_
      emptying := fun o ho s hs => ?_
      unindexed := fun s hs => ?_
      removed := fun i hi => .inl ?_
      removal := fun h => ?_
      indexed := .inl
      absent := fun hnone => hnone }
  · obtain ⟨request, rfl⟩ := hbegun o (List.mem_of_getElem? hi)
    cases (begin_spec request).1.symm.trans hholds
  · obtain ⟨request, rfl⟩ := hbegun o ho
    cases (begin_spec request).2.1.symm.trans hs
  · obtain ⟨request, rfl⟩ := hbegun o ho
    cases (begin_spec request).2.2.1.symm.trans hm
  · have hindex : r.placement.get? id = some s := (hplaced s).mp (Option.isSome_of_eq_some hm)
    rw [ShardRegistry.member?, ShardRegistry.shardOf, hindex]
    exact hm
  · have hthere := (hplaced s).mpr hindex
    rw [show r.memberIn s id = none from hs] at hthere
    cases hthere
  · obtain ⟨request, rfl⟩ := hbegun o ho
    exact absurd hs ((begin_spec request).2.2.2.1 _ _)
  · obtain ⟨request, rfl⟩ := hbegun o ho
    exact absurd hs ((begin_spec request).2.2.2.1 _ _)
  · obtain ⟨request, h⟩ := hbegun _ hs
    exact absurd h ((begin_spec request).2.2.2.2 _)
  · show (requests.map Request.begin)[i]? = some .remove
    rw [List.getElem?_map, hi]
    rfl
  · obtain ⟨request, hmem, hrequest⟩ := List.mem_map.mp h
    cases request with
    | move target => cases hrequest
    | remove => exact hmem

namespace Sound

section Step

variable {id : ConnectionId} {r : ShardRegistry α} {requests : List Request} {x : Crowd α} {i : Nat}
  {op op' : Operation α} {r' : ShardRegistry α}

/-- Whoever takes a step is not at an entry that another one holds. -/
theorem not_held (h : Sound id r requests x) (t : Turned id x i op op' r') {j : Nat}
    {o : Operation α} (hne : j ≠ i) (ho : x.operations[j]? = some o) (hholds : o.holds = true) :
    o.place ≠ op.place := by
  intro hplace
  cases hop : op.holds with
  | true => exact hne (h.exclusive j i o op ho t.here hholds hop hplace)
  | false =>
    have hfree := t.free
    rw [bars, hop, Bool.not_false, Bool.true_and, List.any_eq_false] at hfree
    exact hfree o (List.mem_of_getElem? ho) (by simp [hholds, hplace])

theorem exclusive_turn (h : Sound id r requests x) (t : Turned id x i op op' r') (j k : Nat)
    (o o' : Operation α) (hj : (x.operations.set i op')[j]? = some o)
    (hk : (x.operations.set i op')[k]? = some o') (ho : o.holds = true) (ho' : o'.holds = true)
    (hplace : o.place = o'.place) : j = k := by
  rw [getElem?_operations t] at hj hk
  by_cases hji : j = i <;> by_cases hki : k = i
  · exact hji.trans hki.symm
  · rw [if_pos hji] at hj
    rw [if_neg hki] at hk
    obtain rfl := Option.some.inj hj
    exact absurd (hplace.symm.trans (t.steps.place_of_holds ho).symm) (h.not_held t hki hk ho')
  · rw [if_neg hji] at hj
    rw [if_pos hki] at hk
    obtain rfl := Option.some.inj hk
    exact absurd (hplace.trans (t.steps.place_of_holds ho').symm) (h.not_held t hji hj ho)
  · rw [if_neg hji] at hj
    rw [if_neg hki] at hk
    exact h.exclusive j k o o' hj hk ho ho' hplace

theorem covered_turn (h : Sound id r requests x) (t : Turned id x i op op' r') (s : ShardId)
    (hs : (r'.memberIn s id).isSome) : Covered id ⟨r', x.operations.set i op'⟩ s := by
  have hkept (hbefore : x.Covered id s) : Covered id ⟨r', x.operations.set i op'⟩ s := by
    refine (hbefore.turn t).resolve_right fun hgone => ?_
    rw [hgone.1] at hs
    cases hs
  obtain ⟨m, hm⟩ := Option.isSome_iff_exists.mp hs
  rcases t.steps.appears hm with hbefore | ⟨-, howes | hdecided⟩
  · exact hkept (h.covered s (Option.isSome_of_eq_some hbefore))
  · exact .inr ⟨op', (mem_operations t).mpr (.inl rfl), howes⟩
  · exact hkept (h.filling op t.mem s hdecided)

theorem backed_turn (h : Sound id r requests x) (t : Turned id x i op op' r') (s : ShardId)
    (hs : r'.memberIn s id = none) : Backed id ⟨r', x.operations.set i op'⟩ s := by
  have hkept (hbefore : x.Backed id s) : Backed id ⟨r', x.operations.set i op'⟩ s := by
    refine (hbefore.turn t (h.known op t.mem)).resolve_right fun hput => ?_
    rw [hs] at hput
    cases hput.1
  rcases t.steps.vanishes hs with hbefore | rfl | hdecided
  · exact hkept (h.backed s hbefore)
  · intro hindex
    cases (t.steps.gone (h.unindexed s t.mem)).symm.trans hindex
  · exact hkept (h.emptying op t.mem s hdecided)

/-- Nobody else comes to an entry before a decision about it is carried out. -/
theorem not_at_decided (h : Sound id r requests x) (t : Turned id x i op op' r') {j : Nat}
    {o : Operation α} (hne : j ≠ i) (ho : x.operations[j]? = some o) {restores : Bool} {s : ShardId}
    (hs : o.decided restores s) : op.place ≠ some s := by
  obtain ⟨hholds, hplace⟩ := Operation.holds_of_decided hs
  exact fun hop => h.not_held t hne ho hholds (hplace.trans hop.symm)

theorem filling_turn (h : Sound id r requests x) (t : Turned id x i op op' r')
    (o : Operation α) (ho : o ∈ x.operations.set i op') (s : ShardId) (hs : o.decided true s) :
    Covered id ⟨r', x.operations.set i op'⟩ s := by
  rcases (mem_operations t).mp ho with rfl | ⟨j, hne, hj⟩
  · exact .inl ((t.steps.decides hs).mp rfl)
  · have hbefore := h.filling o (List.mem_of_getElem? hj) s hs
    exact (hbefore.turn t).resolve_right fun hgone => h.not_at_decided t hne hj hs hgone.2

theorem emptying_turn (h : Sound id r requests x) (t : Turned id x i op op' r')
    (o : Operation α) (ho : o ∈ x.operations.set i op') (s : ShardId) (hs : o.decided false s) :
    Backed id ⟨r', x.operations.set i op'⟩ s := by
  rcases (mem_operations t).mp ho with rfl | ⟨j, hne, hj⟩
  · intro hindex
    cases (t.steps.decides hs).mpr hindex
  · have hbefore := h.emptying o (List.mem_of_getElem? hj) s hs
    exact (hbefore.turn t (h.known op t.mem)).resolve_right fun hput =>
      h.not_at_decided t hne hj hs hput.2

theorem removed_turn (h : Sound id r requests x) (t : Turned id x i op op' r') (j : Nat)
    (hj : requests[j]? = some .remove) :
    (x.operations.set i op')[j]? = some .remove ∨ r'.placement.get? id = none := by
  rcases h.removed j hj with hbegun | hnone
  · rw [getElem?_operations t]
    by_cases hji : j = i
    · subst hji
      obtain rfl := Option.some.inj (t.here.symm.trans hbegun)
      exact .inr t.steps.removed
    · rw [if_neg hji]
      exact .inl hbegun
  · exact .inr (t.steps.gone hnone)

/-- A step of one operation keeps what is always so. -/
theorem turned (h : Sound id r requests x) (t : Turned id x i op op' r') :
    Sound id r requests ⟨r', x.operations.set i op'⟩ := by
  refine
    { exclusive := h.exclusive_turn t
      known := fun o ho s hs => ?_
      carried := fun o ho m hm => ?_
      member := fun s m hm => ?_
      covered := h.covered_turn t
      backed := h.backed_turn t
      filling := h.filling_turn t
      emptying := h.emptying_turn t
      unindexed := fun s hs => ?_
      removed := h.removed_turn t
      removal := fun hremove => ?_
      indexed := fun hnone => ?_
      absent := fun hnone => t.steps.gone (h.absent hnone) }
  · rw [t.steps.known]
    rcases (mem_operations t).mp ho with rfl | ⟨j, -, hj⟩
    · exact (t.steps.target? hs).elim (h.known op t.mem s) fun hknown => hknown
    · exact h.known o (List.mem_of_getElem? hj) s hs
  · rcases (mem_operations t).mp ho with rfl | ⟨j, -, hj⟩
    · rcases t.steps.member? hm with hbefore | ⟨s, hs⟩
      · exact h.carried op t.mem m hbefore
      · exact h.member s m hs
    · exact h.carried o (List.mem_of_getElem? hj) m hm
  · rcases t.steps.appears hm with hbefore | ⟨hcarried, -⟩
    · exact h.member s m hbefore
    · exact h.carried op t.mem m hcarried
  · rcases (mem_operations t).mp hs with rfl | ⟨j, -, hj⟩
    · exact t.steps.unindexed rfl
    · exact t.steps.gone (h.unindexed s (List.mem_of_getElem? hj))
  · rcases (mem_operations t).mp hremove with hbegun | ⟨j, -, hj⟩
    · exact absurd hbegun.symm t.steps.begun
    · exact h.removal (List.mem_of_getElem? hj)
  · rcases t.steps.removes hnone with hbefore | rfl
    · exact h.indexed hbefore
    · exact .inr (h.removal t.mem)

end Step
/-- What is always so stays so in any order of steps. -/
theorem run {id : ConnectionId} {r : ShardRegistry α} {requests : List Request} {x : Crowd α}
    (h : Sound id r requests x) (turns : List Nat) : Sound id r requests (x.run id turns) := by
  induction turns generalizing x with
  | nil => exact h
  | cons i turns ih =>
    refine ih ?_
    rcases x.turn_cases id i with hturn | ⟨op, op', r', t, hturn⟩
    · rw [hturn]
      exact h
    · rw [hturn]
      exact h.turned t

/-- When all operations have finished, nobody answers for anything. -/
theorem placed_of_finished {id : ConnectionId} {r : ShardRegistry α} {requests : List Request}
    {x : Crowd α} (h : Sound id r requests x) (hfinished : x.finished = true) (s : ShardId) :
    (x.registry.memberIn s id).isSome ↔ x.registry.placement.get? id = some s := by
  have hdone : ∀ op ∈ x.operations, ∃ answer, op = .done answer := by
    intro op hop
    have hop := List.all_eq_true.mp hfinished op hop
    cases op with
    | done answer => exact ⟨answer, rfl⟩
    | _ => cases hop
  constructor
  · intro hs
    rcases h.covered s hs with hindex | ⟨op, hop, howes⟩
    · exact hindex
    · obtain ⟨answer, rfl⟩ := hdone op hop
      exact howes.elim
  · intro hindex
    refine Option.isSome_iff_ne_none.mpr fun hs => ?_
    obtain ⟨op, hop, hbacks⟩ := h.backed s hs hindex
    obtain ⟨answer, rfl⟩ := hdone op hop
    exact hbacks.elim

/-- When all operations have finished, the connection is out of the index if it was not there, or if
    it was to be removed. -/
theorem indexed_of_finished {id : ConnectionId} {r : ShardRegistry α} {requests : List Request}
    {x : Crowd α} (h : Sound id r requests x) (hfinished : x.finished = true) :
    x.registry.placement.get? id = none ↔
      r.placement.get? id = none ∨ Request.remove ∈ requests := by
  refine ⟨h.indexed, ?_⟩
  rintro (hbefore | hremove)
  · exact h.absent hbefore
  · obtain ⟨i, hi⟩ := List.mem_iff_getElem?.mp hremove
    refine (h.removed i hi).resolve_left fun hbegun => ?_
    cases List.all_eq_true.mp hfinished _ (List.mem_of_getElem? hbegun)

end Sound

/-! ## The end -/

/-- Somebody can take a step as long as not all operations have finished: whoever holds an entry, or
    anybody if nobody does. -/
theorem exists_free {x : Crowd α} (h : x.finished = false) :
    ∃ (i : Nat) (op : Operation α), x.operations[i]? = some op ∧ op.finished = false ∧ x.bars op = false := by
  by_cases hheld : ∃ op ∈ x.operations, op.holds = true
  · obtain ⟨op, hop, hholds⟩ := hheld
    obtain ⟨i, hi⟩ := List.mem_iff_getElem?.mp hop
    refine ⟨i, op, hi, ?_, by rw [bars, hholds]; rfl⟩
    cases op with
    | done answer => cases hholds
    | _ => rfl
  · obtain ⟨op, hop, hunfinished⟩ := List.all_eq_false.mp h
    obtain ⟨i, hi⟩ := List.mem_iff_getElem?.mp hop
    have hnobody : x.operations.any (fun other => other.holds && other.place = op.place) = false :=
      List.any_eq_false.mpr fun o ho hholds => hheld ⟨o, ho, ((Bool.and_eq_true ..).mp hholds).1⟩
    exact ⟨i, op, hi, by simpa using hunfinished, by rw [bars, hnobody, Bool.and_false]⟩

/-- The number of steps that all operations together may still take. -/
def rank (x : Crowd α) : Nat := (x.operations.map (·.rank)).sum

theorem sum_rank_set_lt {ops : List (Operation α)} {i : Nat} {op op' : Operation α}
    (hi : ops[i]? = some op) (hlt : op'.rank < op.rank) :
    ((ops.set i op').map (·.rank)).sum < (ops.map (·.rank)).sum := by
  induction ops generalizing i with
  | nil => cases hi
  | cons o ops ih =>
    cases i with
    | zero =>
      obtain rfl := Option.some.inj hi
      simp only [List.set_cons_zero, List.map_cons, List.sum_cons]
      omega
    | succ i =>
      have hrest := ih hi
      simp only [List.set_cons_succ, List.map_cons, List.sum_cons]
      omega

/-- Whatever steps were taken, the operations can all come to their ends. -/
theorem exists_run_finished (id : ConnectionId) (x : Crowd α) :
    ∃ turns, (x.run id turns).finished = true := by
  induction hrank : x.rank using Nat.strongRecOn generalizing x with
  | ind n ih =>
    cases hfinished : x.finished with
    | true => exact ⟨[], hfinished⟩
    | false =>
      obtain ⟨i, op, hi, hunfinished, hfree⟩ := exists_free hfinished
      obtain ⟨op', r', t, hturn⟩ := turned id hi hfree
      have hlt : Crowd.rank ⟨r', x.operations.set i op'⟩ < n :=
        hrank ▸ sum_rank_set_lt hi (t.steps.rank_lt hunfinished)
      obtain ⟨turns, hturns⟩ := ih _ hlt _ rfl
      refine ⟨i :: turns, ?_⟩
      rw [run, List.foldl_cons, hturn]
      exact hturns

/-! ## Convergence -/

/-- In a registry that is one map, the id is in the set of the shard that the index names, and in no
    other one. -/
theorem isSome_memberIn_iff {r : ShardRegistry α} {m : Assignment α} (h : ShardRegistry.Refines r m)
    (id : ConnectionId) (s : ShardId) :
    (r.memberIn s id).isSome ↔ r.placement.get? id = some s := by
  rw [h.index, Option.isSome_iff_exists, Option.map_eq_some_iff]
  constructor
  · rintro ⟨member, hmember⟩
    exact ⟨(s, member), (h.member s id member).mp hmember, rfl⟩
  · rintro ⟨⟨_, member⟩, hplaced, rfl⟩
    exact ⟨member, (h.member _ id member).mpr hplaced⟩

/-- Any number of moves and removals of a connection, which is in the set of the shard that the index
    names and in no other one, take their steps in any order. When all have finished, the connection
    is again in the set of the shard that the index names, and in no other one, as the member that was
    registered; it is out of the index, and so in no set at all, exactly if it was not registered or
    was to be removed. Until then, they can all come to their ends. -/
theorem converges (id : ConnectionId) {r : ShardRegistry α}
    (hplaced : ∀ s, (r.memberIn s id).isSome ↔ r.placement.get? id = some s)
    (requests : List Request) (turns : List Nat) :
    let x := (start r requests).run id turns
    (x.finished = true →
      (∀ s, (x.registry.memberIn s id).isSome ↔ x.registry.placement.get? id = some s) ∧
      (∀ s member, x.registry.memberIn s id = some member → r.member? id = some member) ∧
      (x.registry.placement.get? id = none ↔
        r.placement.get? id = none ∨ Request.remove ∈ requests)) ∧
    ∃ more, (x.run id more).finished = true := by
  intro x
  have hsound : Sound id r requests x := (sound_start hplaced requests).run turns
  exact ⟨fun hfinished =>
    ⟨hsound.placed_of_finished hfinished, hsound.member, hsound.indexed_of_finished hfinished⟩,
    exists_run_finished id x⟩

/-- A registry with one connection, in the first of two shards. -/
def oneInFirst : ShardRegistry Unit := (((ShardRegistry.empty.know 0).know 1).add 7 () 0).2

theorem refines_oneInFirst :
    ShardRegistry.Refines oneInFirst ⟨[unassignedShard, 0, 1], Dict.empty.set 7 (0, ())⟩ :=
  (ShardRegistry.call_add ((ShardRegistry.refines_initial.know 0).know 1) 7 () 0).2

/-- A move to the second shard has put its copy there and swapped the index, when another move takes
    the connection back. The first move finds its source named again and leaves the member there; it
    finds its target empty and holds the entry. Now a removal comes to the index, before the first move
    looks there whether it is to bring the member back. -/
theorem converges_to_nowhere :
    let x := (start oneInFirst [.move 1, .move 0, .remove]).run 7
      [0, 0, 0, 0, 1, 1, 1, 1, 1, 1, 0, 0, 0, 1, 0, 2, 1, 0, 0, 2]
    x.finished = true ∧ x.registry.placement.get? 7 = none ∧ ∀ s, x.registry.memberIn s 7 = none := by
  intro x
  have hfinished : x.finished = true := by decide
  obtain ⟨hend, -⟩ := converges 7 (isSome_memberIn_iff refines_oneInFirst 7)
    [.move 1, .move 0, .remove] [0, 0, 0, 0, 1, 1, 1, 1, 1, 1, 0, 0, 0, 1, 0, 2, 1, 0, 0, 2]
  obtain ⟨hplaced, -, hindex⟩ := hend hfinished
  have hnone : x.registry.placement.get? 7 = none := hindex.mpr (.inr (by decide))
  refine ⟨hfinished, hnone, fun s => ?_⟩
  rw [← Option.not_isSome_iff_eq_none, hplaced, hnone]
  exact nofun

end Crowd
end ShardMesh
