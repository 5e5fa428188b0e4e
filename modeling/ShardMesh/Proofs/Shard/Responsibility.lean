import ShardMesh.Proofs.Shard.Operation

/-!
# Who puts the sets right

While a connection is moved or removed, a set may have a copy of it although the index does not name
its shard, and the set of the shard that the index names may lack it. Each such deviation has an
operation that has yet to put it right: `Operation.owes` says who is to take a copy out,
`Operation.backs` who is to bring the member back. An operation gives up a responsibility only in the
step that finds the set right or puts it right, and that step is at the entry of this set
(`Steps.covered`, `Steps.backed`). A set changes for the worse only by an operation that is responsible
afterwards, or that has decided so by the index (`Steps.appears`, `Steps.vanishes`).
-/

namespace ShardMesh

namespace Operation

variable {α : Type}

/-! ## Responsibilities -/

/-- The operation is to take a copy out of the set of a shard, unless the index names the shard. -/
def owes (s : ShardId) : Operation α → Prop
  | .copied p => p.target = s
  | .amending p a g => a.restores = false ∧ a.shard p = s ∧ g ≠ .informed true
  | .unindexed shard => shard = s
  | _ => False

/-- The operation is to bring the member back into the set of a shard, if it is missing there
although the index names the shard. -/
def backs (s : ShardId) : Operation α → Prop
  | .amending p a g => p.target = s ∧ (a = .leave ∨ a = .restore ∧ g ≠ .informed false)
  | _ => False

/-- The operation is about to put the member into the set of a shard, which it saw in the index, or
to take it out of the set of a shard, which it did not see there. -/
def decided (restores : Bool) (s : ShardId) : Operation α → Prop
  | .amending p a g => a.restores = restores ∧ a.shard p = s ∧ g = .informed restores
  | _ => False

/-- The shard that a move, once it has begun, goes to. -/
def target? : Operation α → Option ShardId
  | .located _ target => some target
  | .fetched p | .copied p | .amending p _ _ => some p.target
  | _ => none

/-- The member that a move has fetched. -/
def member? : Operation α → Option α
  | .fetched p | .copied p | .amending p _ _ => some p.member
  | _ => none

/-! ## Amendments -/

section Amendments

variable {id : ConnectionId} {s : ShardId}

@[simp] theorem placement_apply (a : Amendment) (p : Passage α) (r : ShardRegistry α) :
    (a.apply id p r).placement = r.placement := by
  unfold Amendment.apply
  split <;> rfl

theorem isSome_apply (a : Amendment) (p : Passage α) (r : ShardRegistry α) (s : ShardId) :
    ((a.apply id p r).shards.get? s).isSome = (r.shards.get? s).isSome := by
  unfold Amendment.apply
  split <;> simp

theorem memberIn_apply_of_not_restores {a : Amendment} (ha : a.restores = false) (p : Passage α)
    (r : ShardRegistry α) (s : ShardId) :
    (a.apply id p r).memberIn s id = if a.shard p = s then none else r.memberIn s id := by
  rw [Amendment.apply, if_neg (by rw [ha]; decide), ShardRegistry.memberIn_takeFrom]
  simp

/-! An amendment is followed by another one that is still to come to its entry, or by nothing. -/

variable (p : Passage α) (a : Amendment)

theorem backs_afterwards : (afterwards id p a).backs s ↔ p.target = s ∧ a = .leave := by
  cases a <;> simp [afterwards, backs]

@[simp] theorem not_decided_afterwards {restores : Bool} :
    ¬ (afterwards id p a).decided restores s := by
  cases a <;> simp [afterwards, decided]

@[simp] theorem holds_afterwards : (afterwards id p a).holds = false := by
  cases a <;> rfl

@[simp] theorem afterwards_ne_remove : afterwards id p a ≠ .remove := by
  cases a <;> simp [afterwards]

@[simp] theorem afterwards_ne_unindexed : afterwards id p a ≠ .unindexed s := by
  cases a <;> simp [afterwards]

theorem target?_of_afterwards (h : (afterwards id p a).target? = some s) : p.target = s := by
  cases a <;> simp_all [afterwards, target?]

theorem member?_of_afterwards {m : α} (h : (afterwards id p a).member? = some m) :
    p.member = m := by
  cases a <;> simp_all [afterwards, member?]

end Amendments

/-! ## What a step does -/

section Step

variable {id : ConnectionId} {op op' : Operation α} {r r' : ShardRegistry α} {s : ShardId}

/-- A copy in the set of a shard stays answered for until it is taken out. -/
theorem Steps.covered (h : Steps id op r op' r') (hs : r.placement.get? id = some s ∨ op.owes s) :
    (r'.placement.get? id = some s ∨ op'.owes s) ∨
      (r'.memberIn s id = none ∧ op.place = some s) := by
  cases h with
  | @swap p r hindex =>
    rcases hs with hs | hs
    · obtain rfl : p.source = s := Option.some.inj (hindex.symm.trans hs)
      exact .inl (.inr ⟨rfl, rfl, by simp⟩)
    · exact .inl (.inl (by simpa [owes] using hs))
  | lose => exact .inl (hs.imp_right fun hs => ⟨rfl, hs, by simp⟩)
  | @pass p a r hpresent =>
    rcases hs with hs | ⟨ha, hs, -⟩
    · exact .inl (.inl hs)
    · rw [ha, hs] at hpresent
      exact .inr ⟨by simpa using hpresent, congrArg some hs⟩
  | grip =>
    rcases hs with hs | ⟨ha, hs, -⟩
    · exact .inl (.inl hs)
    · exact .inl (.inr ⟨ha, hs, by simp⟩)
  | @look p a r named hnamed =>
    rcases hs with hs | ⟨ha, hs, -⟩
    · exact .inl (.inl hs)
    · cases named with
      | true => exact .inl (.inl (hs ▸ hnamed.mp rfl))
      | false => exact .inl (.inr ⟨ha, hs, by simp⟩)
  | @amend p a r named hnamed =>
    rcases hs with hs | ⟨ha, hs, -⟩
    · exact .inl (.inl (by simpa using hs))
    · exact .inr ⟨by rw [memberIn_apply_of_not_restores ha, if_pos hs], congrArg some hs⟩
  | @spare p a r named hnamed =>
    rcases hs with hs | ⟨ha, -, hs⟩
    · exact .inl (.inl hs)
    · cases named <;> simp_all
  | @unindex shard r hindex =>
    rcases hs with hs | hs
    · exact .inl (.inr (Option.some.inj (hindex.symm.trans hs)))
    · exact hs.elim
  | @take shard answer r =>
    rcases hs with hs | rfl
    · exact .inl (.inl hs)
    · exact .inr ⟨by simp [ShardRegistry.memberIn_takeFrom], rfl⟩
  | _ => exact .inl (.inl (hs.resolve_right fun h => h))

/-- The set whose shard the index names stays answered for until the member is there. -/
theorem Steps.backed (h : Steps id op r op' r')
    (hknown : ∀ t, op.target? = some t → (r.shards.get? t).isSome)
    (hs : r'.placement.get? id = some s) :
    op'.backs s ∨ (r.placement.get? id = some s ∧ ¬ op.backs s) ∨
      ((r'.memberIn s id).isSome ∧ op.place = some s) := by
  cases h with
  | @swap p r hindex =>
    rw [Dict.get?_set, if_pos rfl] at hs
    exact .inl ⟨Option.some.inj hs, .inl rfl⟩
  | @pass p a r hpresent =>
    by_cases hback : p.target = s
    · cases a with
      | leave => exact .inl ((backs_afterwards p _).mpr ⟨hback, rfl⟩)
      | restore => exact .inr (.inr ⟨hback ▸ hpresent, congrArg some hback⟩)
      | retreat => exact .inr (.inl ⟨hs, by simp [backs]⟩)
    · exact .inr (.inl ⟨hs, fun h => hback h.1⟩)
  | @grip p a r =>
    by_cases hback : p.target = s ∧ (a = .leave ∨ a = .restore)
    · exact .inl ⟨hback.1, hback.2.imp_right fun ha => ⟨ha, nofun⟩⟩
    · exact .inr (.inl ⟨hs, fun h => hback ⟨h.1, h.2.imp_right And.left⟩⟩)
  | @look p a r named hnamed =>
    by_cases hback : p.target = s ∧ (a = .leave ∨ a = .restore)
    · obtain ⟨rfl, rfl | rfl⟩ := hback
      · exact .inl ⟨rfl, .inl rfl⟩
      · obtain rfl : named = true := hnamed.mpr hs
        exact .inl ⟨rfl, .inr ⟨rfl, nofun⟩⟩
    · exact .inr (.inl ⟨hs, fun h => hback ⟨h.1, h.2.imp_right And.left⟩⟩)
  | @amend p a r named hnamed =>
    rw [placement_apply] at hs
    by_cases hback : p.target = s
    · cases a with
      | leave => exact .inl ((backs_afterwards p _).mpr ⟨hback, rfl⟩)
      | restore =>
        subst hback
        have hput : ((Amendment.restore.apply id p r).memberIn p.target id) = some p.member := by
          have hinsert := ShardRegistry.memberIn_insertInto (hknown p.target rfl) id p.member
            p.target id
          rwa [if_pos ⟨rfl, rfl⟩] at hinsert
        exact .inr (.inr ⟨by rw [hput]; rfl, rfl⟩)
      | retreat => exact .inr (.inl ⟨hs, by simp [backs]⟩)
    · exact .inr (.inl ⟨hs, fun h => hback h.1⟩)
  | @spare p a r named hnamed =>
    by_cases hback : p.target = s ∧ a = .leave
    · exact .inl ((backs_afterwards p _).mpr hback)
    · refine .inr (.inl ⟨hs, ?_⟩)
      rintro ⟨htarget, rfl | ⟨rfl, hinformed⟩⟩
      · exact hback ⟨htarget, rfl⟩
      · cases named <;> simp_all [Amendment.restores]
  | unindex hindex => simp at hs
  | _ => exact .inr (.inl ⟨hs, fun h => h⟩)

theorem memberIn_insertInto_cases (r : ShardRegistry α) (shard : ShardId) (id : ConnectionId)
    (member : α) (s : ShardId) :
    (r.insertInto shard id member).memberIn s id = r.memberIn s id ∨
      shard = s ∧ (r.insertInto shard id member).memberIn s id = some member := by
  simp only [ShardRegistry.memberIn, ShardRegistry.insertInto, Dict.get?_modify]
  by_cases hshard : shard = s
  · subst hshard
    cases r.shards.get? shard <;> simp
  · simp [hshard]

/-- Who is in a set was there, or was put there: as a copy, or on a decision. -/
theorem Steps.appears {m : α} (h : Steps id op r op' r') (hs : r'.memberIn s id = some m) :
    r.memberIn s id = some m ∨ op.member? = some m ∧ (op'.owes s ∨ op.decided true s) := by
  cases h with
  | @copy p r =>
    rcases memberIn_insertInto_cases r p.target id p.member s with hput | ⟨hshard, hput⟩
    · exact .inl (hput ▸ hs)
    · exact .inr ⟨hput.symm.trans hs, .inl hshard⟩
  | @amend p a r named hnamed =>
    rw [Amendment.apply] at hs
    split at hs
    · rename_i ha
      rcases memberIn_insertInto_cases r (a.shard p) id p.member s with
        hput | ⟨hshard, hput⟩
      · exact .inl (hput ▸ hs)
      · exact .inr ⟨hput.symm.trans hs, .inr ⟨ha, hshard, by rw [hnamed, ha]⟩⟩
    · rw [ShardRegistry.memberIn_takeFrom] at hs
      split at hs
      · cases hs
      · exact .inl hs
  | take =>
    rw [ShardRegistry.memberIn_takeFrom] at hs
    split at hs
    · cases hs
    · exact .inl hs
  | _ => exact .inl hs

/-- Who is not in a set was not there, or was taken out: by a removal, or on a decision. -/
theorem Steps.vanishes (h : Steps id op r op' r') (hs : r'.memberIn s id = none) :
    r.memberIn s id = none ∨ op = .unindexed s ∨ op.decided false s := by
  cases h with
  | @copy p r =>
    rcases memberIn_insertInto_cases r p.target id p.member s with hput | ⟨-, hput⟩
    · exact .inl (hput ▸ hs)
    · cases hput.symm.trans hs
  | @amend p a r named hnamed =>
    rw [Amendment.apply] at hs
    split at hs
    · rcases memberIn_insertInto_cases r (a.shard p) id p.member s with
        hput | ⟨-, hput⟩
      · exact .inl (hput ▸ hs)
      · cases hput.symm.trans hs
    · rename_i ha
      rw [Bool.not_eq_true] at ha
      rw [ShardRegistry.memberIn_takeFrom] at hs
      split at hs
      · rename_i hshard
        exact .inr (.inr ⟨ha, hshard.1, by rw [hnamed, ha]⟩)
      · exact .inl hs
  | @take shard answer r =>
    rw [ShardRegistry.memberIn_takeFrom] at hs
    split at hs
    · rename_i hshard
      exact .inr (.inl (congrArg _ hshard.1))
    · exact .inl hs
  | _ => exact .inl hs

/-- A decision is what the index says when it is made. -/
theorem Steps.decides {restores : Bool} (h : Steps id op r op' r') (hs : op'.decided restores s) :
    restores = true ↔ r'.placement.get? id = some s := by
  cases h with
  | @look p a r named hnamed =>
    obtain ⟨-, rfl, hinformed⟩ := hs
    cases hinformed
    exact hnamed
  | pass | amend | spare => simp at hs
  | _ => simp [decided] at hs

/-- A removal that has begun has taken the connection out of the index. -/
theorem Steps.unindexed (h : Steps id op r op' r') (hs : op' = .unindexed s) :
    r'.placement.get? id = none := by
  cases h with
  | unindex => simp
  | _ => simp at hs

/-- Nobody brings a connection back into the index. -/
theorem Steps.gone (h : Steps id op r op' r') (hs : r.placement.get? id = none) :
    r'.placement.get? id = none := by
  cases h with
  | swap hindex => cases hindex.symm.trans hs
  | unindex => simp
  | amend => rwa [placement_apply]
  | _ => exact hs

/-- Only a removal takes a connection out of the index. -/
theorem Steps.removes (h : Steps id op r op' r') (hs : r'.placement.get? id = none) :
    r.placement.get? id = none ∨ op = .remove := by
  cases h with
  | swap hindex => simp at hs
  | unindex => exact .inr rfl
  | amend =>
    rw [placement_apply] at hs
    exact .inl hs
  | _ => exact .inl hs

/-- A removal begins by taking the connection out of the index. -/
theorem Steps.removed (h : Steps id .remove r op' r') : r'.placement.get? id = none := by
  cases h with
  | lack hindex => exact hindex
  | unindex => simp

/-- No step leads back to the beginning of a removal. -/
theorem Steps.begun (h : Steps id op r op' r') : op' ≠ .remove := by
  cases h with
  | _ => simp

theorem Steps.known (h : Steps id op r op' r') (s : ShardId) :
    (r'.shards.get? s).isSome = (r.shards.get? s).isSome := by
  cases h with
  | copy => exact ShardRegistry.isSome_insertInto ..
  | amend => exact isSome_apply ..
  | take => exact ShardRegistry.isSome_takeFrom ..
  | _ => rfl

/-- A move goes to a known shard. -/
theorem Steps.target? (h : Steps id op r op' r') (hs : op'.target? = some s) :
    op.target? = some s ∨ (r.shards.get? s).isSome := by
  cases h with
  | locate hknown => exact .inr (Option.some.inj hs ▸ hknown)
  | grip | look | copy | swap | lose | fetch => exact .inl hs
  | pass | amend | spare => exact .inl (congrArg some (target?_of_afterwards _ _ hs))
  | _ => cases hs

/-- A move has the member from a set. -/
theorem Steps.member? {m : α} (h : Steps id op r op' r') (hm : op'.member? = some m) :
    op.member? = some m ∨ ∃ s, r.memberIn s id = some m := by
  cases h with
  | @fetch source target member r hmember => exact .inr ⟨source, hmember.trans hm⟩
  | grip | look | copy | swap | lose => exact .inl hm
  | pass | amend | spare => exact .inl (congrArg some (member?_of_afterwards _ _ hm))
  | _ => cases hm

/-- An operation that holds an entry was at it before. -/
theorem Steps.place_of_holds (h : Steps id op r op' r') (hh : op'.holds) : op.place = op'.place := by
  cases h with
  | grip | look => rfl
  | pass | amend | spare => simp at hh
  | _ => cases hh

/-- An operation that has decided holds the entry of the set. -/
theorem holds_of_decided {restores : Bool} (h : op.decided restores s) :
    op.holds = true ∧ op.place = some s := by
  cases op with
  | amending p a g =>
    obtain ⟨-, hplace, rfl⟩ := h
    exact ⟨rfl, congrArg some hplace⟩
  | _ => exact h.elim

end Step

/-! ## The way to the end -/

/-- The number of steps that an amendment may still take. -/
def remaining : Amendment → Grip → Nat
  | .leave, .reaching => 6
  | .leave, .holding => 5
  | .leave, .informed _ => 4
  | _, .reaching => 3
  | _, .holding => 2
  | _, .informed _ => 1

/-- The number of steps that an operation may still take. -/
def rank : Operation α → Nat
  | .move _ => 10
  | .located _ _ => 9
  | .fetched _ => 8
  | .copied _ => 7
  | .amending _ a g => remaining a g
  | .remove => 2
  | .unindexed _ => 1
  | .done _ => 0

/-- Every step of an operation that has not finished brings it closer to its end. -/
theorem Steps.rank_lt {id : ConnectionId} {op op' : Operation α} {r r' : ShardRegistry α}
    (h : Steps id op r op' r') (hop : op.finished = false) : op'.rank < op.rank := by
  cases h with
  | @pass p a r hpresent => cases a <;> simp [rank, remaining, afterwards]
  | @amend p a r named hnamed => cases a <;> simp [rank, remaining, afterwards]
  | @spare p a r named hnamed => cases a <;> simp [rank, remaining, afterwards]
  | @grip p a r => cases a <;> simp [rank, remaining]
  | @look p a r named hnamed => cases a <;> simp [rank, remaining]
  | rest => cases hop
  | _ => simp [rank, remaining]

end Operation
end ShardMesh
