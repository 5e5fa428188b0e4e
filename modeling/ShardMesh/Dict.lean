/-!
# Dictionaries

A dictionary binds each of its keys to one value and remembers the order in which the keys came:
binding a key again changes its value and keeps its place. That no key occurs twice is part of the
type, so the size of a dictionary is the number of keys that it binds.
-/

namespace ShardMesh

/-- Keys with their values, in the order in which the keys were first bound. -/
structure Dict (κ : Type) (α : Type) where
  /-- The bindings. -/
  entries : List (κ × α)
  /-- No key is bound twice. -/
  nodup : (entries.map Prod.fst).Nodup := by simp

namespace Dict

variable {κ α : Type} [DecidableEq κ]

/-- The dictionary that binds nothing. -/
def empty : Dict κ α := ⟨[], by simp⟩

instance : Inhabited (Dict κ α) := ⟨⟨[], by simp⟩⟩

/-- The value that a row of bindings gives to a key. -/
def lookup (k : κ) : List (κ × α) → Option α
  | [] => none
  | e :: rest => if e.1 = k then some e.2 else lookup k rest

/-- The value of a key. -/
def get? (d : Dict κ α) (k : κ) : Option α := lookup k d.entries

/-- Whether a key is bound. -/
def contains (d : Dict κ α) (k : κ) : Bool := (d.get? k).isSome

/-- The bound keys in order. -/
def keys (d : Dict κ α) : List κ := d.entries.map Prod.fst

/-- The values in the order of their keys. -/
def values (d : Dict κ α) : List α := d.entries.map Prod.snd

/-- The number of bound keys. -/
def size (d : Dict κ α) : Nat := d.entries.length

/-- A row of bindings in which a key has a new value: in its place if it was bound, else last. -/
def assign (k : κ) (v : α) : List (κ × α) → List (κ × α)
  | [] => [(k, v)]
  | e :: rest => if e.1 = k then (k, v) :: rest else e :: assign k v rest

theorem mem_keys_assign {k : κ} {v : α} {row : List (κ × α)} {x : κ} :
    x ∈ (assign k v row).map Prod.fst ↔ x = k ∨ x ∈ row.map Prod.fst := by
  induction row with
  | nil => simp [assign]
  | cons e rest ih =>
    by_cases h : e.1 = k
    · simp [assign, h]
    · simp only [assign, h, if_false, List.map_cons, List.mem_cons, ih]
      constructor <;> intro h <;> rcases h with h | h | h <;> simp [h]

theorem nodup_assign {k : κ} {v : α} {row : List (κ × α)} (h : (row.map Prod.fst).Nodup) :
    ((assign k v row).map Prod.fst).Nodup := by
  induction row with
  | nil => simp [assign]
  | cons e rest ih =>
    simp only [List.map_cons, List.nodup_cons] at h
    by_cases c : e.1 = k
    · simp only [assign, c, if_true, List.map_cons, List.nodup_cons]
      exact ⟨c ▸ h.1, h.2⟩
    · rw [assign, if_neg c, List.map_cons, List.nodup_cons, mem_keys_assign]
      exact ⟨fun m => m.elim (fun e' => c e') h.1, ih h.2⟩

/-- The dictionary in which a key has a new value. -/
def set (d : Dict κ α) (k : κ) (v : α) : Dict κ α :=
  ⟨assign k v d.entries, nodup_assign d.nodup⟩

/-- The dictionary without a key. -/
def erase (d : Dict κ α) (k : κ) : Dict κ α :=
  ⟨d.entries.filter (fun e => e.1 ≠ k), d.nodup.sublist (List.filter_sublist.map _)⟩

/-- The dictionary in which the value of a key, if it is bound, is changed. -/
def modify (d : Dict κ α) (k : κ) (f : α → α) : Dict κ α :=
  match d.get? k with
  | some v => d.set k (f v)
  | none => d

/-- The dictionary of a row of bindings, of which the last counts for each key. -/
def ofList (row : List (κ × α)) : Dict κ α :=
  row.foldl (fun d e => d.set e.1 e.2) empty

/-! ## What each operation does to the values -/

theorem lookup_assign (k x : κ) (v : α) (row : List (κ × α)) :
    lookup x (assign k v row) = if k = x then some v else lookup x row := by
  induction row with
  | nil => simp [assign, lookup]
  | cons e rest ih =>
    by_cases h : e.1 = k
    · by_cases c : k = x <;> simp [assign, lookup, h, c]
    · by_cases c : e.1 = x
      · have : k ≠ x := fun e' => h (c.trans e'.symm)
        rw [assign, if_neg h]
        simp [lookup, c, this]
      · simp [assign, lookup, h, c, ih]

theorem lookup_filter (k x : κ) (row : List (κ × α)) :
    lookup x (row.filter (fun e => e.1 ≠ k)) = if k = x then none else lookup x row := by
  induction row with
  | nil => simp [lookup]
  | cons e rest ih =>
    by_cases h : e.1 = k
    · by_cases c : k = x <;> simp_all [lookup]
    · by_cases c : e.1 = x
      · have : k ≠ x := fun e' => h (c.trans e'.symm)
        simp_all [lookup]
      · simp_all [lookup]

@[simp] theorem get?_empty (x : κ) : (empty : Dict κ α).get? x = none := rfl

@[simp] theorem get?_set (d : Dict κ α) (k x : κ) (v : α) :
    (d.set k v).get? x = if k = x then some v else d.get? x :=
  lookup_assign k x v d.entries

@[simp] theorem get?_erase (d : Dict κ α) (k x : κ) :
    (d.erase k).get? x = if k = x then none else d.get? x :=
  lookup_filter k x d.entries

end Dict
end ShardMesh
