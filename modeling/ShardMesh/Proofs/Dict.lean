import ShardMesh.Dict

/-!
# What a dictionary binds

A dictionary is known by the values of its keys: two dictionaries that give the same values hold
the same bindings, in whatever order these were made.
-/

namespace ShardMesh.Dict

variable {κ α β : Type} [DecidableEq κ]

/-! ## Bindings -/

theorem mem_of_lookup {row : List (κ × α)} {k : κ} {v : α} (h : lookup k row = some v) :
    (k, v) ∈ row := by
  induction row with
  | nil => cases h
  | cons e rest ih =>
    rw [lookup] at h
    split at h
    · rename_i hk
      cases h
      rw [← hk]
      exact List.mem_cons_self
    · exact List.mem_cons_of_mem e (ih h)

theorem lookup_of_mem {row : List (κ × α)} (hrow : (row.map Prod.fst).Nodup) {k : κ} {v : α}
    (h : (k, v) ∈ row) : lookup k row = some v := by
  induction row with
  | nil => cases h
  | cons e rest ih =>
    rw [List.map_cons, List.nodup_cons] at hrow
    rw [lookup]
    rcases List.mem_cons.mp h with rfl | h
    · exact if_pos rfl
    · have hne : e.1 ≠ k := by
        intro heq
        exact hrow.1 (heq ▸ List.mem_map_of_mem h)
      rw [if_neg hne]
      exact ih hrow.2 h

/-- The bindings of a dictionary are its values. -/
theorem mem_entries {d : Dict κ α} {k : κ} {v : α} : (k, v) ∈ d.entries ↔ d.get? k = some v :=
  ⟨lookup_of_mem d.nodup, mem_of_lookup⟩

theorem mem_keys {d : Dict κ α} {k : κ} : k ∈ d.keys ↔ (d.get? k).isSome := by
  rw [Option.isSome_iff_exists]
  constructor
  · intro h
    obtain ⟨⟨k', v⟩, hmem, rfl⟩ := List.mem_map.mp h
    exact ⟨v, mem_entries.mp hmem⟩
  · rintro ⟨v, h⟩
    exact List.mem_map.mpr ⟨(k, v), mem_entries.mpr h, rfl⟩

/-- Only the value of the changed key changes, and only if there is one. -/
@[simp] theorem get?_modify (d : Dict κ α) (k x : κ) (f : α → α) :
    (d.modify k f).get? x = if k = x then (d.get? x).map f else d.get? x := by
  unfold modify
  by_cases hx : k = x
  · subst hx
    split <;> simp [*]
  · split <;> simp [hx]

/-! ## Changes that change nothing -/

theorem assign_of_lookup {row : List (κ × α)} {k : κ} {v : α} (h : lookup k row = some v) :
    assign k v row = row := by
  induction row with
  | nil => cases h
  | cons e rest ih =>
    rw [lookup] at h
    rw [assign]
    split at h
    · rename_i hk
      cases h
      rw [if_pos hk, ← hk]
    · rename_i hk
      rw [if_neg hk, ih h]

/-- Binding a key to the value that it has changes nothing. -/
theorem set_of_get? {d : Dict κ α} {k : κ} {v : α} (h : d.get? k = some v) : d.set k v = d := by
  obtain ⟨entries, hentries⟩ := d
  simp only [set, assign_of_lookup h]

/-- Erasing a key that is not bound changes nothing. -/
theorem erase_of_get? {d : Dict κ α} {k : κ} (h : d.get? k = none) : d.erase k = d := by
  have hother : ∀ e ∈ d.entries, e.1 ≠ k := by
    rintro ⟨k', v⟩ he rfl
    rw [mem_entries.mp he] at h
    cases h
  obtain ⟨entries, hentries⟩ := d
  simp only [erase, mk.injEq]
  exact List.filter_eq_self.mpr fun e he => decide_eq_true (hother e he)

/-! ## Rows of bindings -/

/-- Of several bindings of a key in a row the last counts. -/
theorem get?_ofList_eq_some_iff {row : List (κ × α)} {k : κ} {v : α} :
    (ofList row).get? k = some v ↔
      ∃ before after, row = before ++ (k, v) :: after ∧ ∀ e ∈ after, e.1 ≠ k := by
  -- The row is bound from its beginning, upon a dictionary that may bind the key already.
  have hfrom (d : Dict κ α) : (row.foldl (fun d e => d.set e.1 e.2) d).get? k = some v ↔
      (∃ before after, row = before ++ (k, v) :: after ∧ ∀ e ∈ after, e.1 ≠ k) ∨
        (∀ e ∈ row, e.1 ≠ k) ∧ d.get? k = some v := by
    induction row generalizing d with
    | nil => simp
    | cons e rest ih =>
      rw [List.foldl_cons, ih, get?_set]
      constructor
      · rintro (⟨before, after, rfl, hafter⟩ | ⟨hrest, hget⟩)
        · exact .inl ⟨e :: before, after, rfl, hafter⟩
        · by_cases hk : e.1 = k
          · rw [if_pos hk] at hget
            exact .inl ⟨[], rest, by rw [← hk, ← Option.some.inj hget]; rfl, hrest⟩
          · rw [if_neg hk] at hget
            exact .inr ⟨List.forall_mem_cons.mpr ⟨hk, hrest⟩, hget⟩
      · rintro (⟨before, after, hrow, hafter⟩ | ⟨hrow, hget⟩)
        · cases before with
          | nil =>
            obtain ⟨rfl, rfl⟩ := List.cons.inj hrow
            exact .inr ⟨hafter, if_pos rfl⟩
          | cons first before =>
            exact .inl ⟨before, after, (List.cons.inj hrow).2, hafter⟩
        · obtain ⟨hk, hrest⟩ := List.forall_mem_cons.mp hrow
          exact .inr ⟨hrest, by rw [if_neg hk, hget]⟩
  refine (hfrom empty).trans (or_iff_left fun h => ?_)
  cases (get?_empty k).symm.trans h.2

theorem assign_of_not_mem {row : List (κ × α)} {k : κ} (h : k ∉ row.map Prod.fst) (v : α) :
    assign k v row = row ++ [(k, v)] := by
  induction row with
  | nil => rfl
  | cons e rest ih =>
    rw [List.map_cons, List.mem_cons, not_or] at h
    rw [assign, if_neg (Ne.symm h.1), ih h.2, List.cons_append]

/-- A row that binds no key twice is what its dictionary binds, in the same order. -/
theorem entries_ofList {row : List (κ × α)} (h : (row.map Prod.fst).Nodup) :
    (ofList row).entries = row := by
  have hfrom (d : Dict κ α) (hd : ((d.entries ++ row).map Prod.fst).Nodup) :
      (row.foldl (fun d e => d.set e.1 e.2) d).entries = d.entries ++ row := by
    induction row generalizing d with
    | nil => exact (List.append_nil _).symm
    | cons e rest ih =>
      have hnew : e.1 ∉ d.entries.map Prod.fst := by
        rw [List.map_append, List.map_cons] at hd
        exact fun hmem => (List.nodup_append.mp hd).2.2 e.1 hmem e.1 List.mem_cons_self rfl
      have hset : (d.set e.1 e.2).entries = d.entries ++ [e] := assign_of_not_mem hnew e.2
      rw [List.map_cons, List.nodup_cons] at h
      rw [List.foldl_cons, ih h.2 _ (by rwa [hset, List.append_assoc]), hset, List.append_assoc]
      rfl
  exact hfrom empty h

/-! ## Dictionaries with the same bindings -/

omit [DecidableEq κ] in
/-- A row that binds no key twice holds no binding twice. -/
theorem nodup_of_keys {row : List (κ × α)} (h : (row.map Prod.fst).Nodup) : row.Nodup :=
  List.Pairwise.of_map Prod.fst (fun _ _ hne heq => hne (congrArg Prod.fst heq)) h

omit [DecidableEq κ] in
/-- Rows that bind no key twice and hold the same bindings differ in their order only. -/
theorem perm_of_mem_iff {row row' : List (κ × α)} (h : (row.map Prod.fst).Nodup)
    (h' : (row'.map Prod.fst).Nodup) (hmem : ∀ e, e ∈ row ↔ e ∈ row') : row.Perm row' :=
  (List.perm_ext_iff_of_nodup (nodup_of_keys h) (nodup_of_keys h')).mpr hmem

/-- A value that no other key has is listed once, if the key has it. -/
theorem count_values [DecidableEq α] {d : Dict κ α} {k : κ} {v : α}
    (hsole : ∀ x, d.get? x = some v → x = k) :
    d.values.count v = if d.get? k = some v then 1 else 0 := by
  have hentries : d.values.count v = d.entries.count (k, v) := by
    rw [values, List.count_eq_countP, List.countP_map, List.count_eq_countP]
    refine List.countP_congr fun e he => ?_
    rw [Function.comp_apply, beq_iff_eq, beq_iff_eq]
    constructor
    · rintro rfl
      exact Prod.ext (hsole e.1 (mem_entries.mp he)) rfl
    · rintro rfl
      rfl
  rw [hentries, (nodup_of_keys d.nodup).count]
  simp only [mem_entries]

/-- Dictionaries that bind the same keys list them in some order. -/
theorem keys_perm {d : Dict κ α} {e : Dict κ β} (h : ∀ k, (d.get? k).isSome = (e.get? k).isSome) :
    d.keys.Perm e.keys := by
  refine (List.perm_ext_iff_of_nodup d.nodup e.nodup).mpr fun k => ?_
  exact mem_keys.trans ((iff_of_eq (congrArg (· = true) (h k))).trans mem_keys.symm)

/-- Looking up the keys gives the values. -/
theorem map_get?_keys (d : Dict κ α) : d.keys.map d.get? = d.values.map some := by
  rw [keys, values, List.map_map, List.map_map]
  exact List.map_congr_left fun e he => mem_entries.mp he

end ShardMesh.Dict
