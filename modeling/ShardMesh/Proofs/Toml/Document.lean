import ShardMesh.Proofs.Toml.Line

/-!
# Documents read back

A document is written depth first, so whatever a line adds comes last wherever it is: the way down
to it goes through the last entry at every level (`Frame`). Reading the lines of a table therefore
adds the table's entries at the end of such a way, and a document is read as what was written, with
the simple values of each table before its tables (`document?_document`).
-/

namespace ShardMesh.Toml

open Items (update)

/-! ## Entries at the end -/

namespace Items

theorem get?_of_not_mem {items : Items} {key : String} (h : key ∉ items.map Prod.fst) :
    get? items key = none := by
  have hnone : items.find? (·.1 = key) = none := by
    refine List.find?_eq_none.mpr fun e he hkey => h ?_
    rw [← of_decide_eq_true hkey]
    exact List.mem_map_of_mem he
  rw [get?, hnone]
  rfl

theorem get?_last {items : Items} {key : String} (h : key ∉ items.map Prod.fst) (v : Value) :
    get? (items ++ [(key, v)]) key = some v := by
  have hnone := get?_of_not_mem h
  rw [get?, Option.map_eq_none_iff] at hnone
  rw [get?, List.find?_append, hnone, Option.none_or, List.find?_cons_of_pos (by simp)]
  rfl

theorem replace_last {items : Items} {key : String} (h : key ∉ items.map Prod.fst) (v w : Value) :
    replace (items ++ [(key, v)]) key w = items ++ [(key, w)] := by
  have hsame : items.map (fun e => if e.1 = key then (key, w) else e) = items := by
    have hother : ∀ e ∈ items, (if e.1 = key then (key, w) else e) = id e := by
      intro e he
      rw [if_neg]
      · rfl
      · rintro rfl
        exact h (List.mem_map_of_mem he)
    rw [List.map_congr_left hother, List.map_id]
  rw [replace, List.map_append, hsame, List.map_singleton, if_pos rfl]

end Items

/-! ## The way down -/

/-- A step on the way down: the entries of a table, of which the last holds what is below. It is a
    table, or the array of tables of which the last is meant. -/
structure Frame where
  before : Items
  key : String
  /-- The rows before the last one, if the entry is an array. -/
  rows : Option (List Value)
  /-- How the table below came to be. -/
  origin : Origin

namespace Frame

/-- The entries, given those of the table below. -/
def fill (f : Frame) (items : Items) : Items :=
  f.before ++ [(f.key, match f.rows with
    | none => .table f.origin items
    | some rows => .array true (rows ++ [.table f.origin items]))]

/-- There is only one entry with the key, and keys may be added to what it holds. -/
structure Open (f : Frame) : Prop where
  fresh : f.key ∉ f.before.map Prod.fst
  origin : f.origin = .header ∨ f.origin = .implied

/-- The document around the table at the end of a way. -/
def fillAll : List Frame → Items → Items
  | [], items => items
  | f :: frames, items => f.fill (fillAll frames items)

/-- The keys on the way. -/
def pathOf (frames : List Frame) : List String := frames.map (·.key)

theorem fillAll_append (frames frames' : List Frame) (items : Items) :
    fillAll (frames ++ frames') items = fillAll frames (fillAll frames' items) := by
  induction frames with
  | nil => rfl
  | cons f frames ih => rw [List.cons_append, fillAll, ih, fillAll]

theorem pathOf_append (frames : List Frame) (f : Frame) :
    pathOf (frames ++ [f]) = pathOf frames ++ [f.key] := List.map_append

/-- A change below a frame is made in the table that it holds. -/
theorem update_fill {f : Frame} (hf : f.Open) (change : Origin → Items → Option Items)
    (path : List String) (origin : Origin) (items : Items) :
    update false change (f.key :: path) origin (f.fill items) =
      (update false change path f.origin items).map f.fill := by
  have hinline : f.origin ≠ .inline := by
    rcases hf.origin with h | h <;> rw [h] <;> decide
  obtain ⟨before, key, rows, origin'⟩ := f
  have hfresh : key ∉ before.map Prod.fst := hf.fresh
  cases rows with
  | none =>
    rw [fill, update, Items.get?_last hfresh]
    dsimp only at hinline ⊢
    rw [if_neg (by simpa using hinline)]
    cases update false change path origin' items with
    | none => rfl
    | some sub =>
      simp only [Option.bind_eq_bind, Option.bind_some, Items.replace_last hfresh]
      rfl
  | some rows =>
    rw [fill, update, Items.get?_last hfresh]
    dsimp only
    rw [List.reverse_append, List.reverse_singleton, List.singleton_append]
    dsimp only
    cases update false change path origin' items with
    | none => rfl
    | some sub =>
      simp only [Option.bind_eq_bind, Option.bind_some, Items.replace_last hfresh,
        List.reverse_reverse]
      rfl

/-- How the table at the end of a way came to be. -/
def originOf (origin : Origin) (frames : List Frame) : Origin :=
  frames.foldl (fun _ f => f.origin) origin

theorem update_fillAll {frames : List Frame} (hopen : ∀ f ∈ frames, f.Open)
    (change : Origin → Items → Option Items) (path : List String) (origin : Origin) (items : Items) :
    update false change (pathOf frames ++ path) origin (fillAll frames items) =
      (update false change path (originOf origin frames) items).map (fillAll frames) := by
  induction frames generalizing origin with
  | nil =>
    have hid : (fillAll [] : Items → Items) = id := rfl
    rw [hid, Option.map_id]
    rfl
  | cons f frames ih =>
    obtain ⟨hf, hrest⟩ := List.forall_mem_cons.mp hopen
    have hpath : pathOf (f :: frames) ++ path = f.key :: (pathOf frames ++ path) := rfl
    rw [hpath, fillAll, update_fill hf, ih hrest, Option.map_map]
    rfl

theorem originOf_ne_dotted {frames : List Frame} (hopen : ∀ f ∈ frames, f.Open) :
    originOf .header frames ≠ .dotted := by
  rcases List.eq_nil_or_concat frames with rfl | ⟨frames, f, rfl⟩
  · decide
  · rw [List.concat_eq_append] at hopen ⊢
    have hf := hopen f (List.mem_append_right _ List.mem_cons_self)
    rw [originOf, List.foldl_append]
    show f.origin ≠ .dotted
    rcases hf.origin with h | h <;> rw [h] <;> decide

/-! ## Lines at the end of a way -/

variable {frames : List Frame} (hopen : ∀ f ∈ frames, f.Open) {items : Items} {key : String}
include hopen

/-- A change of the table that was opened last. -/
theorem update_here (change : Origin → Items → Option Items) (items : Items) :
    update false change (pathOf frames) .header (fillAll frames items) =
      (change (originOf .header frames) items).map (fillAll frames) := by
  have hupdate := update_fillAll hopen change [] .header items
  rwa [List.append_nil] at hupdate

/-- A key with its value goes to the end of the table that was opened last. -/
theorem apply_value (hkey : key ∉ items.map Prod.fst) (v : Value) :
    (Line.value key v).apply ⟨fillAll frames items, pathOf frames⟩ =
      some ⟨fillAll frames (items ++ [(key, v)]), pathOf frames⟩ := by
  have hinsert : Items.insertNew true key v (originOf .header frames) items =
      some (items ++ [(key, v)]) := by
    have hdotted := originOf_ne_dotted hopen
    simp [Items.insertNew, Items.get?_of_not_mem hkey, hdotted]
  rw [Line.apply, Items.insertAt, update_here hopen, update, List.isEmpty_nil, hinsert]
  rfl

/-- The header of a table opens a frame. -/
theorem apply_header (hkey : key ∉ items.map Prod.fst) (section_ : List String) :
    (Line.header false (pathOf frames) key).apply ⟨fillAll frames items, section_⟩ =
      some ⟨fillAll (frames ++ [⟨items, key, none, .header⟩]) [],
        pathOf (frames ++ [⟨items, key, none, .header⟩])⟩ := by
  rw [Line.apply, Items.openTable, update_here hopen, Items.get?_of_not_mem hkey, fillAll_append,
    pathOf_append]
  rfl

/-- The header of a first row opens a frame. -/
theorem apply_firstRow (hkey : key ∉ items.map Prod.fst) (section_ : List String) :
    (Line.header true (pathOf frames) key).apply ⟨fillAll frames items, section_⟩ =
      some ⟨fillAll (frames ++ [⟨items, key, some [], .header⟩]) [],
        pathOf (frames ++ [⟨items, key, some [], .header⟩])⟩ := by
  rw [Line.apply, Items.openRow, update_here hopen, Items.get?_of_not_mem hkey, fillAll_append,
    pathOf_append]
  rfl

/-- The header of another row opens a frame with the rows before it. -/
theorem apply_nextRow (hkey : key ∉ items.map Prod.fst) (rows : List Value)
    (section_ : List String) :
    (Line.header true (pathOf frames) key).apply
        ⟨fillAll frames (items ++ [(key, .array true rows)]), section_⟩ =
      some ⟨fillAll (frames ++ [⟨items, key, some rows, .header⟩]) [],
        pathOf (frames ++ [⟨items, key, some rows, .header⟩])⟩ := by
  rw [Line.apply, Items.openRow, update_here hopen, Items.get?_last hkey, fillAll_append,
    pathOf_append]
  dsimp only
  rw [Items.replace_last hkey]
  rfl

/-- A table that is not there is, for a header below it, as good as one that is empty. -/
theorem apply_below (hkey : key ∉ items.map Prod.fst) (row : Bool) (path : List String)
    (name : String) (section_ section' : List String) :
    (Line.header row (pathOf (frames ++ [⟨items, key, none, .implied⟩]) ++ path) name).apply
        ⟨fillAll frames items, section_⟩ =
      (Line.header row (pathOf (frames ++ [⟨items, key, none, .implied⟩]) ++ path) name).apply
        ⟨fillAll (frames ++ [⟨items, key, none, .implied⟩]) [], section'⟩ := by
  have hopen' : ∀ f ∈ frames ++ [⟨items, key, none, .implied⟩], f.Open := by
    intro f hf
    rcases List.mem_append.mp hf with hf | hf
    · exact hopen f hf
    · rw [List.mem_singleton.mp hf]
      exact ⟨hkey, .inr rfl⟩
  have hsame (change : Origin → Items → Option Items) :
      update false change (pathOf (frames ++ [⟨items, key, none, .implied⟩]) ++ path) .header
          (fillAll frames items) =
        update false change (pathOf (frames ++ [⟨items, key, none, .implied⟩]) ++ path) .header
          (fillAll (frames ++ [⟨items, key, none, .implied⟩]) []) := by
    rw [update_fillAll hopen', pathOf_append, List.append_assoc, update_fillAll hopen,
      List.singleton_append, update, Items.get?_of_not_mem hkey]
    simp only [originOf, List.foldl_append, List.foldl_cons, List.foldl_nil, Bool.false_eq_true,
      if_false]
    cases update false change path .implied [] with
    | none => rfl
    | some sub =>
      simp only [Option.bind_eq_bind, Option.bind_some, Option.map_some, fillAll_append]
      rfl
  cases row with
  | false => rw [Line.apply, Items.openTable, hsame]; rfl
  | true => rw [Line.apply, Items.openRow, hsame]; rfl

end Frame

/-! ## Lines of a document -/

/-- The entries of a table that have lines of their own: simple values. -/
def ownItems (items : Items) : Items := items.filter fun e => !Writer.hasHeader e.2

/-- The lines of the simple values of a table. -/
def ownLines (items : Items) : List Line := (ownItems items).map fun e => .value e.1 e.2

/-- A table that gets no header, because it holds other tables only. -/
abbrev Headless (items : Items) : Prop := (ownLines items).isEmpty ∧ !items.isEmpty

mutual

/-- The lines under the headers of a table, each block with its header. -/
def blocksOf (path : List String) : Items → List (List Line)
  | [] => []
  | (name, v) :: rest =>
    (match v with
      | .table _ sub =>
        (if Headless sub then [] else [.header false path name :: ownLines sub]) ++
          blocksOf (path ++ [name]) sub
      | .array true rows => rowBlocksOf path name rows
      | _ => []) ++ blocksOf path rest

/-- The lines of the rows of an array, each under a header of its own. -/
def rowBlocksOf (path : List String) (name : String) : List Value → List (List Line)
  | [] => []
  | .table _ sub :: rest =>
    (.header true path name :: ownLines sub) ::
      (blocksOf (path ++ [name]) sub ++ rowBlocksOf path name rest)
  | _ :: rest => rowBlocksOf path name rest

end

/-- All lines of a document: blocks with a blank line between them. -/
def linesOf (items : Items) : List Line :=
  List.intercalate [.blank] ((if (ownLines items).isEmpty then [] else [ownLines items]) ++
    blocksOf [] items)

theorem valueLines_eq (items : Items) :
    Writer.valueLines items = (ownLines items).map Line.text := by
  rw [Writer.valueLines, ownLines, List.map_map]
  rfl

mutual

theorem blocks_eq (path : List String) : (items : Items) →
    Writer.blocks path items = (blocksOf path items).map (·.map Line.text)
  | [] => by rw [Writer.blocks, blocksOf]; rfl
  | (name, v) :: rest => by
    have hrest := blocks_eq path rest
    cases v with
    | table origin sub =>
      have hsub := blocks_eq (path ++ [name]) sub
      have hempty : (Writer.valueLines sub).isEmpty = (ownLines sub).isEmpty := by
        rw [valueLines_eq, List.isEmpty_map]
      rw [Writer.blocks, blocksOf, List.map_append, List.map_append, hrest]
      dsimp only
      rw [hsub, hempty, valueLines_eq]
      by_cases hless : Headless sub
      · rw [if_pos hless, if_pos hless]
        rfl
      · rw [if_neg hless, if_neg hless]
        rfl
    | array fromHeaders rows =>
      cases fromHeaders with
      | true =>
        rw [Writer.blocks, blocksOf, List.map_append, hrest, rowBlocks_eq path name rows]
      | false => simp [Writer.blocks, blocksOf, hrest]
    | _ => simp [Writer.blocks, blocksOf, hrest]

theorem rowBlocks_eq (path : List String) (name : String) : (rows : List Value) →
    Writer.rowBlocks (path ++ [name]) rows = (rowBlocksOf path name rows).map (·.map Line.text)
  | [] => by rw [Writer.rowBlocks, rowBlocksOf]; rfl
  | v :: rest => by
    have hrest := rowBlocks_eq path name rest
    cases v with
    | table origin sub =>
      have hsub := blocks_eq (path ++ [name]) sub
      rw [Writer.rowBlocks, rowBlocksOf, List.map_cons, List.map_append, hsub, hrest, valueLines_eq]
      rfl
    | _ => simp [Writer.rowBlocks, rowBlocksOf, hrest]

end

/-- The text of a document is that of its lines. -/
theorem toList_document (items : Items) :
    (Writer.document items).toList = (linesOf items).flatMap fun l => l.text ++ ['\n'] := by
  have hjoin (blocks : List (List Line)) :
      List.intercalate ['\n'] ((blocks.map (·.map Line.text)).map fun lines =>
        lines.flatMap (· ++ ['\n'])) =
      (List.intercalate [.blank] blocks).flatMap fun l => l.text ++ ['\n'] := by
    induction blocks with
    | nil => rfl
    | cons block blocks ih =>
      cases blocks with
      | nil => simp [List.flatMap_map]
      | cons next blocks =>
        rw [List.map_cons, List.map_cons, List.map_cons, List.map_cons,
          List.intercalate_cons_cons, ← List.map_cons, ← List.map_cons, ih,
          List.intercalate_cons_cons, List.flatMap_append, List.flatMap_append, List.flatMap_map]
        rfl
  have hown : (if (Writer.valueLines items).isEmpty then [] else [Writer.valueLines items]) =
      (if (ownLines items).isEmpty then [] else [ownLines items]).map (·.map Line.text) := by
    rw [valueLines_eq, List.isEmpty_map]
    split <;> rfl
  rw [Writer.document, String.toList_ofList, linesOf, hown, blocks_eq, ← List.map_append, hjoin]

/-! ## What can be read back -/

/-- A value that can be written and read back, with at most so many levels of headers. The keys of a
    table are different. -/
def Value.Writable : (levels : Nat) → Value → Prop
  | levels + 1, .table _ items =>
    (items.map Prod.fst).Nodup ∧ ∀ e ∈ items, e.2.Writable levels
  | levels + 1, .array true rows => rows ≠ [] ∧ ∀ row ∈ rows, ∃ origin items,
      row = .table origin items ∧ (items.map Prod.fst).Nodup ∧ ∀ e ∈ items, e.2.Writable levels
  | _, v => v.Simple

mutual

/-- The tables of a table as they are read. -/
def tablesAsRead : Items → Items
  | [] => []
  | (name, v) :: rest =>
    (match v with
      | .table _ sub =>
        [(name, .table (if Headless sub then .implied else .header)
          (ownItems sub ++ tablesAsRead sub))]
      | .array true rows => [(name, .array true (rowsAsRead rows))]
      | _ => []) ++ tablesAsRead rest

/-- The rows of an array as they are read. -/
def rowsAsRead : List Value → List Value
  | [] => []
  | .table _ sub :: rest => .table .header (ownItems sub ++ tablesAsRead sub) :: rowsAsRead rest
  | _ :: rest => rowsAsRead rest

end

/-- A table as it is read: its simple values, and then its tables. -/
def asRead (items : Items) : Items := ownItems items ++ tablesAsRead items

/-- A value as it is read. -/
def Value.asRead : Value → Value
  | .table _ sub => .table (if Headless sub then .implied else .header) (Toml.asRead sub)
  | .array true rows => .array true (rowsAsRead rows)
  | v => v

/-- The entries of a table that have headers. -/
def headed (items : Items) : Items := items.filter fun e => Writer.hasHeader e.2

theorem ownItems_append (items items' : Items) :
    ownItems (items ++ items') = ownItems items ++ ownItems items' := List.filter_append ..

theorem headed_append (items items' : Items) :
    headed (items ++ items') = headed items ++ headed items' := List.filter_append ..

theorem ownItems_append_headed_perm (items : Items) : (ownItems items ++ headed items).Perm items :=
  List.perm_append_comm.trans (List.filter_append_perm _ items)

theorem ownItems_eq_self {items : Items} (h : ∀ e ∈ items, Writer.hasHeader e.2 = false) :
    ownItems items = items := List.filter_eq_self.mpr fun e he => by rw [h e he]; rfl

theorem headed_eq_nil {items : Items} (h : ∀ e ∈ items, Writer.hasHeader e.2 = false) :
    headed items = [] := List.filter_eq_nil_iff.mpr fun e he => by rw [h e he]; decide

theorem headed_eq_self {items : Items} (h : ∀ e ∈ items, Writer.hasHeader e.2 = true) :
    headed items = items := List.filter_eq_self.mpr h

theorem ownItems_eq_nil {items : Items} (h : ∀ e ∈ items, Writer.hasHeader e.2 = true) :
    ownItems items = [] := List.filter_eq_nil_iff.mpr fun e he => by rw [h e he]; decide

/-- The tables of a table are read one by one. -/
theorem tablesAsRead_eq (items : Items) :
    tablesAsRead items = (headed items).map fun e => (e.1, e.2.asRead) := by
  induction items with
  | nil => rw [tablesAsRead]; rfl
  | cons e items ih =>
    obtain ⟨name, v⟩ := e
    cases v with
    | table origin sub => rw [tablesAsRead, ih]; rfl
    | array fromHeaders rows =>
      cases fromHeaders with
      | true => rw [tablesAsRead, ih]; rfl
      | false => simp [tablesAsRead, ih, headed, Writer.hasHeader]
    | _ => simp [tablesAsRead, ih, headed, Writer.hasHeader]

/-- Simple values at the beginning of a table stay there. -/
theorem asRead_append {values : Items} (h : ∀ e ∈ values, Writer.hasHeader e.2 = false)
    (items : Items) : asRead (values ++ items) = values ++ asRead items := by
  rw [asRead, asRead, tablesAsRead_eq, tablesAsRead_eq, headed_append, headed_eq_nil h,
    ownItems_append, ownItems_eq_self h, List.append_assoc]
  rfl

/-- Where all values are tables, they stay in order. -/
theorem asRead_of_hasHeader {tables : Items} (h : ∀ e ∈ tables, Writer.hasHeader e.2 = true) :
    asRead tables = tables.map fun e => (e.1, e.2.asRead) := by
  rw [asRead, tablesAsRead_eq, ownItems_eq_nil h, headed_eq_self h, List.nil_append]

/-- A simple value among tables is read before them. -/
theorem asRead_middle {tables : Items} (h : ∀ e ∈ tables, Writer.hasHeader e.2 = true)
    {e : String × Value} (he : Writer.hasHeader e.2 = false) (items : Items) :
    asRead (tables ++ e :: items) = e :: asRead (tables ++ items) := by
  have hfirst : ownItems (e :: items) = e :: ownItems items :=
    List.filter_cons_of_pos (by simp [he])
  have hrest : headed (e :: items) = headed items := List.filter_cons_of_neg (by simp [he])
  rw [asRead, asRead, tablesAsRead_eq, tablesAsRead_eq, headed_append, headed_append, hrest,
    ownItems_append, ownItems_append, ownItems_eq_nil h, hfirst]
  rfl

theorem asRead_nil : asRead [] = [] := by rw [asRead, tablesAsRead]; rfl

theorem asRead_of_not_hasHeader {v : Value} (h : Writer.hasHeader v = false) : v.asRead = v := by
  cases v with
  | table origin items => cases h
  | array fromHeaders rows =>
    cases fromHeaders with
    | true => cases h
    | false => rfl
  | _ => rfl

theorem asRead_singleton (name : String) (v : Value) : asRead [(name, v)] = [(name, v.asRead)] := by
  cases hv : Writer.hasHeader v with
  | false =>
    have hown : ∀ e ∈ [(name, v)], Writer.hasHeader e.2 = false := List.forall_mem_singleton.mpr hv
    have hread := asRead_append hown []
    rw [asRead_nil, List.append_nil] at hread
    rw [asRead_of_not_hasHeader hv]
    exact hread
  | true => exact asRead_of_hasHeader (List.forall_mem_singleton.mpr hv)

theorem not_hasHeader_of_simple {v : Value} (h : v.Simple) : Writer.hasHeader v = false := by
  cases v with
  | table origin items => exact h.elim
  | array fromHeaders rows =>
    cases fromHeaders with
    | true => exact h.elim
    | false => rfl
  | _ => rfl

/-- What has no header can be written if it is simple. -/
theorem writable_iff_simple {levels : Nat} {v : Value} (h : Writer.hasHeader v = false) :
    v.Writable levels ↔ v.Simple := by
  cases levels with
  | zero => exact Iff.rfl
  | succ levels =>
    cases v with
    | table origin items => cases h
    | array fromHeaders rows =>
      cases fromHeaders with
      | true => cases h
      | false => exact Iff.rfl
    | _ => exact Iff.rfl

theorem writable_of_simple {levels : Nat} {v : Value} (h : v.Simple) : v.Writable levels :=
  (writable_iff_simple (not_hasHeader_of_simple h)).mpr h

theorem mem_ownItems {items : Items} {e : String × Value} :
    e ∈ ownItems items ↔ e ∈ items ∧ Writer.hasHeader e.2 = false := by
  rw [ownItems, List.mem_filter, Bool.not_eq_true']

theorem legible_ownLines {levels : Nat} {items : Items} (h : ∀ e ∈ items, e.2.Writable levels) :
    ∀ l ∈ ownLines items, l.Legible := by
  intro l hl
  obtain ⟨e, he, rfl⟩ := List.mem_map.mp hl
  obtain ⟨hmem, hheader⟩ := mem_ownItems.mp he
  exact (writable_iff_simple hheader).mp (h e hmem)

/-- What can be written is a simple value, a table or an array of tables. -/
theorem writable_cases {levels : Nat} {v : Value} (h : v.Writable levels) :
    v.Simple ∨ ∃ n, levels = n + 1 ∧
      ((∃ origin items, v = .table origin items ∧ (items.map Prod.fst).Nodup ∧
        ∀ e ∈ items, e.2.Writable n) ∨
      ∃ rows, v = .array true rows ∧ rows ≠ [] ∧ ∀ row ∈ rows, ∃ origin items,
        row = .table origin items ∧ (items.map Prod.fst).Nodup ∧ ∀ e ∈ items, e.2.Writable n) := by
  cases levels with
  | zero => exact .inl h
  | succ n =>
    cases v with
    | table origin items => exact .inr ⟨n, rfl, .inl ⟨origin, items, rfl, h⟩⟩
    | array fromHeaders rows =>
      cases fromHeaders with
      | true => exact .inr ⟨n, rfl, .inr ⟨rows, rfl, h⟩⟩
      | false => exact .inl h
    | _ => exact .inl h

theorem blocksOf_cons_of_simple {v : Value} (h : v.Simple) (path : List String) (name : String)
    (rest : Items) : blocksOf path ((name, v) :: rest) = blocksOf path rest := by
  cases v with
  | table origin items => exact h.elim
  | array fromHeaders rows =>
    cases fromHeaders with
    | true => exact h.elim
    | false => simp [blocksOf]
  | _ => simp [blocksOf]

theorem blocksOf_cons_table (path : List String) (name : String) (origin : Origin)
    (sub rest : Items) : blocksOf path ((name, .table origin sub) :: rest) =
      ((if Headless sub then [] else [.header false path name :: ownLines sub]) ++
        blocksOf (path ++ [name]) sub) ++ blocksOf path rest := by
  rw [blocksOf]

theorem blocksOf_cons_rows (path : List String) (name : String) (rows : List Value)
    (rest : Items) : blocksOf path ((name, .array true rows) :: rest) =
      rowBlocksOf path name rows ++ blocksOf path rest := by
  rw [blocksOf]

theorem rowBlocksOf_cons (path : List String) (name : String) (origin : Origin) (sub : Items)
    (rest : List Value) : rowBlocksOf path name (.table origin sub :: rest) =
      (.header true path name :: ownLines sub) ::
        (blocksOf (path ++ [name]) sub ++ rowBlocksOf path name rest) := by
  rw [rowBlocksOf]

theorem tablesAsRead_cons_table (name : String) (origin : Origin) (sub rest : Items) :
    tablesAsRead ((name, .table origin sub) :: rest) =
      (name, .table (if Headless sub then .implied else .header) (asRead sub)) ::
        tablesAsRead rest := by
  rw [tablesAsRead]
  rfl

theorem tablesAsRead_cons_rows (name : String) (rows : List Value) (rest : Items) :
    tablesAsRead ((name, .array true rows) :: rest) =
      (name, .array true (rowsAsRead rows)) :: tablesAsRead rest := by
  rw [tablesAsRead]
  rfl

theorem rowsAsRead_cons (origin : Origin) (sub : Items) (rest : List Value) :
    rowsAsRead (.table origin sub :: rest) = .table .header (asRead sub) :: rowsAsRead rest := by
  rw [rowsAsRead]
  rfl

theorem legible_rowBlocksOf {path : List String} {name : String} {rows : List Value}
    (hheader : (Line.header true path name).Legible)
    (hrows : ∀ row ∈ rows, ∃ origin sub, row = .table origin sub ∧ (∀ l ∈ ownLines sub, l.Legible) ∧
      ∀ l ∈ (blocksOf (path ++ [name]) sub).flatten, l.Legible) :
    ∀ l ∈ (rowBlocksOf path name rows).flatten, l.Legible := by
  induction rows with
  | nil =>
    intro l hl
    rw [rowBlocksOf] at hl
    cases hl
  | cons row rows ih =>
    obtain ⟨⟨origin, sub, rfl, hown, hbelow⟩, hmore⟩ := List.forall_mem_cons.mp hrows
    rw [rowBlocksOf_cons, List.flatten_cons, List.flatten_append]
    simp only [List.forall_mem_append, List.forall_mem_cons]
    exact ⟨⟨hheader, hown⟩, hbelow, ih hmore⟩

/-- Headers are not too long if there are not too many levels. -/
theorem legible_blocksOf {levels : Nat} {items : Items} (h : ∀ e ∈ items, e.2.Writable levels)
    (path : List String) (hpath : path.length + levels < Reader.maxDepth) :
    ∀ l ∈ (blocksOf path items).flatten, l.Legible := by
  induction levels using Nat.strongRecOn generalizing items path with
  | _ levels ihLevels =>
  induction items with
  | nil =>
    intro l hl
    rw [blocksOf] at hl
    cases hl
  | cons e rest ihRest =>
    obtain ⟨name, v⟩ := e
    obtain ⟨hv, hrest⟩ := List.forall_mem_cons.mp h
    rcases writable_cases hv with hsimple | ⟨n, rfl, htable⟩
    · rw [blocksOf_cons_of_simple hsimple]
      exact ihRest hrest
    · have hheader (row : Bool) : (Line.header row path name).Legible := by
        show path.length + 1 < Reader.maxDepth
        omega
      have hbelow (sub : Items) (hsub : ∀ e ∈ sub, e.2.Writable n) :
          ∀ l ∈ (blocksOf (path ++ [name]) sub).flatten, l.Legible := by
        refine ihLevels n (Nat.lt_succ_self n) hsub (path ++ [name]) ?_
        rw [List.length_append, List.length_singleton]
        omega
      rcases htable with ⟨origin, sub, rfl, -, hsub⟩ | ⟨rows, rfl, -, hrows⟩
      · rw [blocksOf_cons_table]
        simp only [List.flatten_append, List.forall_mem_append]
        refine ⟨⟨?_, hbelow sub hsub⟩, ihRest hrest⟩
        split
        · exact List.forall_mem_nil _
        · rw [List.flatten_singleton]
          exact List.forall_mem_cons.mpr ⟨hheader false, legible_ownLines hsub⟩
      · rw [blocksOf_cons_rows, List.flatten_append]
        refine List.forall_mem_append.mpr ⟨legible_rowBlocksOf (hheader true) ?_, ihRest hrest⟩
        intro row hrow
        obtain ⟨origin, sub, heq, -, hsub⟩ := hrows row hrow
        exact ⟨origin, sub, heq, legible_ownLines hsub, hbelow sub hsub⟩

/-! ## Reading the lines -/

theorem run_append (s : Reader.State) (lines lines' : List Line) :
    Line.run s (lines ++ lines') = (Line.run s lines).bind fun s => Line.run s lines' :=
  List.foldlM_append

theorem headed_cons {v : Value} (h : Writer.hasHeader v = true) (name : String) (rest : Items) :
    headed ((name, v) :: rest) = (name, v) :: headed rest := List.filter_cons_of_pos h

theorem headed_cons_of_simple {v : Value} (h : v.Simple) (name : String) (rest : Items) :
    headed ((name, v) :: rest) = headed rest :=
  List.filter_cons_of_neg (by simp [not_hasHeader_of_simple h])

theorem tablesAsRead_cons_of_simple {v : Value} (h : v.Simple) (name : String) (rest : Items) :
    tablesAsRead ((name, v) :: rest) = tablesAsRead rest := by
  rw [tablesAsRead_eq, headed_cons_of_simple h, ← tablesAsRead_eq]

/-- Where keys are different, one may get another value. -/
theorem fresh_of_nodup {items rest : Items} {e : String × Value}
    (h : ((items ++ e :: rest).map Prod.fst).Nodup) :
    e.1 ∉ items.map Prod.fst ∧ ∀ v, ((items ++ [(e.1, v)] ++ rest).map Prod.fst).Nodup := by
  rw [List.map_append, List.map_cons] at h
  constructor
  · intro hmem
    exact (List.nodup_append.mp h).2.2 e.1 hmem e.1 List.mem_cons_self rfl
  · intro v
    rwa [List.append_assoc, List.map_append]

open Toml.Frame (fillAll pathOf fillAll_append pathOf_append)

/-- Whether the headers of a table, wherever it is, are read as its tables, after what is there. -/
def ReadsBack (sub : Items) : Prop :=
  ∀ (frames : List Frame), (∀ f ∈ frames, f.Open) → ∀ (items : Items),
    ((items ++ headed sub).map Prod.fst).Nodup → ∀ section_, ∃ section',
      Line.run ⟨fillAll frames items, section_⟩ (blocksOf (pathOf frames) sub).flatten =
        some ⟨fillAll frames (items ++ tablesAsRead sub), section'⟩

/-- A table that holds tables only starts with a header, maybe one further down. -/
theorem exists_header {levels : Nat} {sub : Items} (hsub : ∀ e ∈ sub, e.2.Writable levels)
    (hne : sub ≠ []) (hown : ownLines sub = []) (path : List String) :
    ∃ row more name lines,
      (blocksOf path sub).flatten = .header row (path ++ more) name :: lines := by
  induction levels using Nat.strongRecOn generalizing sub path with
  | _ levels ih =>
  obtain ⟨⟨name, v⟩, rest, rfl⟩ := List.exists_cons_of_ne_nil hne
  obtain ⟨hv, -⟩ := List.forall_mem_cons.mp hsub
  rcases writable_cases hv with
    hsimple | ⟨n, rfl, ⟨origin, items, rfl, -, hitems⟩ | ⟨rows, rfl, hrows, hall⟩⟩
  · have hmem : (name, v) ∈ ownItems ((name, v) :: rest) :=
      mem_ownItems.mpr ⟨List.mem_cons_self, not_hasHeader_of_simple hsimple⟩
    rw [List.map_eq_nil_iff.mp hown] at hmem
    cases hmem
  · rw [blocksOf_cons_table]
    by_cases hless : Headless items
    · obtain ⟨hnone, hsome⟩ := hless
      have hitemsne : items ≠ [] := by
        rintro rfl
        cases hsome
      obtain ⟨row, more, below, lines, hlines⟩ := ih n (Nat.lt_succ_self n) hitems hitemsne
        (List.isEmpty_iff.mp hnone) (path ++ [name])
      refine ⟨row, name :: more, below, lines ++ (blocksOf path rest).flatten, ?_⟩
      rw [if_pos ⟨hnone, hsome⟩, List.nil_append, List.flatten_append, hlines, List.append_assoc]
      rfl
    · refine ⟨false, [], name, ownLines items ++ (blocksOf (path ++ [name]) items).flatten ++
        (blocksOf path rest).flatten, ?_⟩
      rw [if_neg hless, List.append_nil]
      simp
  · obtain ⟨row, rows, rfl⟩ := List.exists_cons_of_ne_nil hrows
    obtain ⟨⟨origin, items, rfl, -⟩, -⟩ := List.forall_mem_cons.mp hall
    refine ⟨true, [], name, ownLines items ++ (blocksOf (path ++ [name]) items).flatten ++
      (rowBlocksOf path name rows).flatten ++ (blocksOf path rest).flatten, ?_⟩
    rw [blocksOf_cons_rows, rowBlocksOf_cons, List.append_nil]
    simp

section

variable {frames : List Frame} (hopen : ∀ f ∈ frames, f.Open) {items : Items}
include hopen

/-- The simple values of a table go to its end. -/
theorem run_values {values : Items} (hkeys : ((items ++ values).map Prod.fst).Nodup) :
    Line.run ⟨fillAll frames items, pathOf frames⟩ (values.map fun e => .value e.1 e.2) =
      some ⟨fillAll frames (items ++ values), pathOf frames⟩ := by
  induction values generalizing items with
  | nil => rw [List.append_nil]; rfl
  | cons e values ih =>
    obtain ⟨hfresh, hnext⟩ := fresh_of_nodup hkeys
    rw [List.append_cons, List.map_cons, Line.run, List.foldlM_cons,
      Frame.apply_value hopen hfresh]
    exact ih (hnext e.2)

theorem open_concat {f : Frame} (hf : f.Open) : ∀ g ∈ frames ++ [f], g.Open := by
  intro g hg
  rcases List.mem_append.mp hg with hg | hg
  · exact hopen g hg
  · rw [List.mem_singleton.mp hg]
    exact hf

/-- What a frame holds after the simple values and the tables of a table were read. -/
theorem run_below {sub : Items} (hnodup : (sub.map Prod.fst).Nodup) (hsub : ReadsBack sub)
    {f : Frame} (hf : f.Open) :
    ∃ section_, Line.run ⟨fillAll (frames ++ [f]) [], pathOf (frames ++ [f])⟩
        (ownLines sub ++ (blocksOf (pathOf (frames ++ [f])) sub).flatten) =
      some ⟨fillAll frames (f.fill (asRead sub)), section_⟩ := by
  have hopen' := open_concat hopen hf
  have hkeys : ((ownItems sub ++ headed sub).map Prod.fst).Nodup :=
    ((ownItems_append_headed_perm sub).map Prod.fst).nodup_iff.mpr hnodup
  have hown : (([] ++ ownItems sub).map Prod.fst).Nodup :=
    hkeys.sublist ((List.sublist_append_left _ _).map Prod.fst)
  have hvalues := run_values hopen' hown
  obtain ⟨section_, hblocks⟩ := hsub _ hopen' _ hkeys (pathOf (frames ++ [f]))
  refine ⟨section_, ?_⟩
  rw [run_append, ownLines, hvalues, Option.bind_some, List.nil_append, hblocks, fillAll_append]
  rfl

/-- A table is read after what is there already. -/
theorem run_table {levels : Nat} {name : String} (hname : name ∉ items.map Prod.fst) {sub : Items}
    (hnodup : (sub.map Prod.fst).Nodup) (hwritable : ∀ e ∈ sub, e.2.Writable levels)
    (hsub : ReadsBack sub) (section_ : List String) :
    ∃ section', Line.run ⟨fillAll frames items, section_⟩
        ((if Headless sub then [] else [.header false (pathOf frames) name :: ownLines sub]) ++
          blocksOf (pathOf frames ++ [name]) sub).flatten =
      some ⟨fillAll frames (items ++
        [(name, .table (if Headless sub then .implied else .header) (asRead sub))]), section'⟩ := by
  by_cases hless : Headless sub
  · obtain ⟨hnone, hsome⟩ := hless
    have hown : ownLines sub = [] := List.isEmpty_iff.mp hnone
    have hne : sub ≠ [] := by
      rintro rfl
      cases hsome
    -- The table comes into being with the first header below it.
    obtain ⟨section', hread⟩ := run_below hopen hnodup hsub (f := ⟨items, name, none, .implied⟩)
      ⟨hname, .inr rfl⟩
    obtain ⟨row, more, below, lines, hlines⟩ := exists_header hwritable hne hown
      (pathOf (frames ++ [⟨items, name, none, .implied⟩]))
    refine ⟨section', ?_⟩
    rw [hown, List.nil_append, hlines, Line.run, List.foldlM_cons,
      ← Frame.apply_below hopen hname _ _ _ section_] at hread
    rw [if_pos ⟨hnone, hsome⟩, if_pos ⟨hnone, hsome⟩, List.nil_append]
    rw [pathOf_append] at hread hlines
    rw [hlines]
    exact hread
  · have hread := run_below hopen hnodup hsub (f := ⟨items, name, none, .header⟩) ⟨hname, .inl rfl⟩
    rw [if_neg hless, if_neg hless, List.flatten_append, List.flatten_singleton, List.cons_append,
      Line.run, List.foldlM_cons, Frame.apply_header hopen hname]
    rw [pathOf_append] at hread ⊢
    exact hread

/-- The rows of an array are read one after the other, after what is there already. -/
theorem run_rows {name : String} (hname : name ∉ items.map Prod.fst)
    {rows : List Value}
    (hrows : ∀ row ∈ rows, ∃ origin sub, row = .table origin sub ∧ (sub.map Prod.fst).Nodup ∧
      ReadsBack sub) (done : List Value) (section_ : List String) :
    ∃ section', Line.run ⟨fillAll frames (items ++ [(name, .array true done)]), section_⟩
        (rowBlocksOf (pathOf frames) name rows).flatten =
      some ⟨fillAll frames (items ++ [(name, .array true (done ++ rowsAsRead rows))]), section'⟩ := by
  induction rows generalizing done section_ with
  | nil =>
    refine ⟨section_, ?_⟩
    simp only [rowBlocksOf, rowsAsRead, List.append_nil]
    rfl
  | cons row rows ih =>
    obtain ⟨⟨origin, sub, rfl, hnodup, hsub⟩, hmore⟩ := List.forall_mem_cons.mp hrows
    obtain ⟨section', hread⟩ := run_below hopen hnodup hsub (f := ⟨items, name, some done, .header⟩)
      ⟨hname, .inl rfl⟩
    obtain ⟨last, hrest⟩ := ih hmore (done ++ [.table .header (asRead sub)]) section'
    refine ⟨last, ?_⟩
    rw [rowBlocksOf_cons, rowsAsRead_cons, List.flatten_cons, List.flatten_append,
      ← List.append_assoc, run_append, List.cons_append, Line.run, List.foldlM_cons,
      Frame.apply_nextRow hopen hname]
    rw [pathOf_append] at hread ⊢
    rw [Option.bind_eq_bind, Option.bind_some, ← Line.run, hread, Option.bind_some]
    rw [List.append_assoc] at hrest
    exact hrest

/-- The first row is read as if there were an array without rows. -/
theorem run_firstRow {name : String} (hname : name ∉ items.map Prod.fst) {rows : List Value}
    (hne : rows ≠ [])
    (hrows : ∀ row ∈ rows, ∃ origin sub, row = .table origin sub ∧ (sub.map Prod.fst).Nodup ∧
      ReadsBack sub) (section_ : List String) :
    Line.run ⟨fillAll frames items, section_⟩ (rowBlocksOf (pathOf frames) name rows).flatten =
      Line.run ⟨fillAll frames (items ++ [(name, .array true [])]), section_⟩
        (rowBlocksOf (pathOf frames) name rows).flatten := by
  obtain ⟨row, rows, rfl⟩ := List.exists_cons_of_ne_nil hne
  obtain ⟨⟨origin, sub, rfl, -⟩, -⟩ := List.forall_mem_cons.mp hrows
  rw [rowBlocksOf_cons, List.flatten_cons, List.cons_append, Line.run, Line.run, List.foldlM_cons,
    List.foldlM_cons, Frame.apply_firstRow hopen hname, Frame.apply_nextRow hopen hname]

end

/-- The headers of a table are read as its tables, and nothing that is there already changes. -/
theorem readsBack {levels : Nat} {sub : Items} (hsub : ∀ e ∈ sub, e.2.Writable levels) :
    ReadsBack sub := by
  induction levels using Nat.strongRecOn generalizing sub with
  | _ levels ihLevels =>
  induction sub with
  | nil =>
    intro frames hopen items hkeys section_
    refine ⟨section_, ?_⟩
    simp only [blocksOf, tablesAsRead, List.append_nil]
    rfl
  | cons e rest ihRest =>
    intro frames hopen items hkeys section_
    obtain ⟨name, v⟩ := e
    obtain ⟨hv, hrest⟩ := List.forall_mem_cons.mp hsub
    rcases writable_cases hv with
      hsimple | ⟨n, rfl, ⟨origin, below, rfl, hnodup, hbelow⟩ | ⟨rows, rfl, hne, hrows⟩⟩
    · rw [headed_cons_of_simple hsimple] at hkeys
      rw [blocksOf_cons_of_simple hsimple, tablesAsRead_cons_of_simple hsimple]
      exact ihRest hrest frames hopen items hkeys section_
    · rw [headed_cons rfl] at hkeys
      obtain ⟨hname, hnext⟩ := fresh_of_nodup hkeys
      have hread := ihLevels n (Nat.lt_succ_self n) hbelow
      obtain ⟨section', htable⟩ := run_table hopen hname hnodup hbelow hread section_
      obtain ⟨last, hothers⟩ := ihRest hrest frames hopen _ (hnext _) section'
      refine ⟨last, ?_⟩
      rw [blocksOf_cons_table, tablesAsRead_cons_table, List.flatten_append, run_append, htable,
        Option.bind_some, hothers, ← List.append_cons]
    · rw [headed_cons rfl] at hkeys
      obtain ⟨hname, hnext⟩ := fresh_of_nodup hkeys
      have hread : ∀ row ∈ rows, ∃ origin sub, row = .table origin sub ∧ (sub.map Prod.fst).Nodup ∧
          ReadsBack sub := by
        intro row hrow
        obtain ⟨origin, sub, heq, hnodup, hbelow⟩ := hrows row hrow
        exact ⟨origin, sub, heq, hnodup, ihLevels n (Nat.lt_succ_self n) hbelow⟩
      obtain ⟨section', htable⟩ := run_rows hopen hname hread [] section_
      obtain ⟨last, hothers⟩ := ihRest hrest frames hopen _ (hnext _) section'
      refine ⟨last, ?_⟩
      rw [blocksOf_cons_rows, tablesAsRead_cons_rows, List.flatten_append, run_append,
        run_firstRow hopen hname hne hread, htable, Option.bind_some, List.nil_append, hothers,
        ← List.append_cons]

/-! ## Whole documents -/

/-- Blank lines between blocks do not count. -/
theorem run_intercalate (s : Reader.State) (blocks : List (List Line)) :
    Line.run s (List.intercalate [.blank] blocks) = Line.run s blocks.flatten := by
  induction blocks generalizing s with
  | nil => rfl
  | cons block blocks ih =>
    cases blocks with
    | nil => simp
    | cons next blocks =>
      rw [List.intercalate_cons_cons, List.append_assoc, run_append, List.flatten_cons, run_append]
      congr 1
      funext s
      exact ih s

/-- What is read from the lines of a document. -/
theorem run_linesOf {levels : Nat} {items : Items} (hnodup : (items.map Prod.fst).Nodup)
    (hitems : ∀ e ∈ items, e.2.Writable levels) :
    (Line.run {} (linesOf items)).map Reader.State.items = some (asRead items) := by
  have hnone : ∀ f ∈ ([] : List Frame), f.Open := List.forall_mem_nil _
  have hkeys : ((ownItems items ++ headed items).map Prod.fst).Nodup :=
    ((ownItems_append_headed_perm items).map Prod.fst).nodup_iff.mpr hnodup
  have hown : (([] ++ ownItems items).map Prod.fst).Nodup :=
    hkeys.sublist ((List.sublist_append_left _ _).map Prod.fst)
  have hvalues : Line.run {} (ownLines items) = some ⟨ownItems items, []⟩ := run_values hnone hown
  obtain ⟨section_, hblocks⟩ := readsBack hitems [] hnone _ hkeys []
  have hfirst : (if (ownLines items).isEmpty then [] else [ownLines items]).flatten =
      ownLines items := by
    split
    · rename_i hempty
      rw [List.isEmpty_iff.mp hempty]
      rfl
    · exact List.flatten_singleton
  have hrun : Line.run {} (linesOf items) = some ⟨asRead items, section_⟩ := by
    rw [linesOf, run_intercalate, List.flatten_append, hfirst, run_append, hvalues]
    exact hblocks
  rw [hrun]
  rfl

theorem legible_intercalate {blocks : List (List Line)} (h : ∀ l ∈ blocks.flatten, l.Legible) :
    ∀ l ∈ List.intercalate [.blank] blocks, l.Legible := by
  induction blocks with
  | nil => exact h
  | cons block blocks ih =>
    rw [List.flatten_cons, List.forall_mem_append] at h
    cases blocks with
    | nil =>
      rw [List.intercalate_singleton]
      exact h.1
    | cons next blocks =>
      rw [List.intercalate_cons_cons, List.forall_mem_append, List.forall_mem_append]
      exact ⟨⟨h.1, List.forall_mem_singleton.mpr trivial⟩, ih h.2⟩

theorem legible_linesOf {levels : Nat} {items : Items} (hlevels : levels < Reader.maxDepth)
    (hitems : ∀ e ∈ items, e.2.Writable levels) : ∀ l ∈ linesOf items, l.Legible := by
  refine legible_intercalate ?_
  rw [List.flatten_append]
  refine List.forall_mem_append.mpr ⟨?_, legible_blocksOf hitems [] (by simpa using hlevels)⟩
  split
  · exact List.forall_mem_nil _
  · rw [List.flatten_singleton]
    exact legible_ownLines hitems

/-- A document that is written is read back, the simple values of each table before its tables. -/
theorem document?_document {levels : Nat} {items : Items} (hlevels : levels < Reader.maxDepth)
    (hnodup : (items.map Prod.fst).Nodup) (hitems : ∀ e ∈ items, e.2.Writable levels) :
    Reader.document? (Writer.document items) = some (asRead items) := by
  have hlegible := legible_linesOf hlevels hitems
  have hmark (more : List Char) :
      (linesOf items).flatMap (fun l => l.text ++ ['\n']) ≠ '\ufeff' :: more := by
    intro h
    cases hlines : linesOf items with
    | nil =>
      rw [hlines] at h
      cases h
    | cons l lines =>
      rw [hlines, List.flatMap_cons] at h
      by_cases hblank : l = .blank
      · subst hblank
        exact absurd (List.cons.inj h).1 (by decide)
      · have hl := hlegible l (hlines ▸ List.mem_cons_self)
        obtain ⟨⟨c, text, htext, hc⟩, -⟩ := line?_text {} hl hblank []
        rw [htext] at h
        have hfirst : c = '\ufeff' := (List.cons.inj h).1
        exact absurd (hfirst ▸ hc.2) (by decide)
  have hskip : Reader.document? (Writer.document items) =
      Reader.lines? (((linesOf items).flatMap fun l => l.text ++ ['\n']).length + 1) {}
        ((linesOf items).flatMap fun l => l.text ++ ['\n']) := by
    rw [Reader.document?, toList_document]
    split
    · rename_i heq
      exact absurd heq (hmark _)
    · rfl
  rw [hskip, lines?_text hlegible {} (Nat.lt_succ_self _), run_linesOf hnodup hitems]

end ShardMesh.Toml
