import ShardMesh.Proofs.Toml.Scalar

/-!
# Lines read back

A document is written line by line: keys with simple values, headers, and blank lines. Every line is
read as what it says, up to its end and no further (`lines?_line`), so a document is read by doing
what its lines say one after the other (`lines?_text`).
-/

namespace ShardMesh.Toml

open Reader

/-! ## Simple values -/

/-- A value that stands on the line of its key and can be read back. -/
def Value.Simple : Value → Prop
  | .string _ | .boolean _ | .array false [] => True
  | .integer n => -(Scalar.integerBound : Int) ≤ n ∧ n < Scalar.integerBound
  | _ => False

/-- What starts with neither bracket, brace nor quote is read as a scalar. -/
theorem value?_scalarText {c : Char} {text rest : List Char} {v : Value}
    (hfirst : c ∉ ['[', '\x7b', '"', '\'']) (hend : ∀ d ∈ c :: text, Scalar.isEnd d = false)
    (htext : Scalar.ofText? (c :: text) = some v) (fuel depth : Nat) :
    value? (fuel + 1) depth (c :: text ++ '\n' :: rest) = some (v, '\n' :: rest) := by
  simp only [List.mem_cons, List.not_mem_nil, or_false, not_or] at hfirst
  obtain ⟨hbracket, hbrace, hdouble, hsingle⟩ := hfirst
  have hcut := Scalar.cut_append hend rest
  unfold value?
  split
  · rename_i heq
    exact absurd (List.cons.inj heq).1 hbracket
  · rename_i heq
    exact absurd (List.cons.inj heq).1 hbrace
  · rename_i heq
    exact absurd (List.cons.inj heq).1 hdouble
  · rename_i heq
    exact absurd (List.cons.inj heq).1 hsingle
  · rw [hcut]
    dsimp only
    rw [htext]
    rfl

theorem exists_quoted_eq (text : List Char) :
    ∃ c rest, Writer.quoted text = c :: rest ∧ (c = '"' ∨ c = '\'') := by
  unfold Writer.quoted
  dsimp only
  split
  · exact ⟨'"', _, rfl, .inl rfl⟩
  split
  · exact ⟨'\'', _, rfl, .inr rfl⟩
  split
  · exact ⟨'"', _, rfl, .inl rfl⟩
  split
  · exact ⟨'\'', _, rfl, .inr rfl⟩
  split
  · exact ⟨'"', _, rfl, .inl rfl⟩
  · exact ⟨'"', _, rfl, .inl rfl⟩

theorem value?_quoted (text : String) (rest : List Char) (fuel depth : Nat) :
    value? (fuel + 1) depth (Writer.quoted text.toList ++ '\n' :: rest) =
      some (.string text, '\n' :: rest) := by
  have hread := text?_quoted text.toList rest
  obtain ⟨c, more, hwritten, rfl | rfl⟩ := exists_quoted_eq text.toList
  all_goals
    rw [hwritten, List.cons_append] at hread ⊢
    unfold value?
    dsimp only
    rw [hread, Option.map_some, String.ofList_toList]
    rfl

/-- A simple value is read back, and nothing after it. -/
theorem value?_scalar {v : Value} (hv : v.Simple) (rest : List Char) (fuel depth : Nat) :
    value? (fuel + 2) (depth + 1) (Writer.scalar v ++ '\n' :: rest) = some (v, '\n' :: rest) := by
  cases v with
  | string text => exact value?_quoted text rest _ _
  | integer n =>
    rw [Writer.scalar, Scalar.toList_toString]
    have hend (c : Char) (hc : c ∈ Scalar.written n) : Scalar.isEnd c = false :=
      Scalar.isEnd_of_mem_written hc
    have htext := Scalar.ofText?_written hv.1 hv.2
    cases hwritten : Scalar.written n with
    | nil =>
      rw [hwritten] at htext
      cases htext
    | cons c text =>
      rw [hwritten] at hend htext
      refine value?_scalarText (fun hc => ?_) hend htext _ _
      have hnone : ∀ d ∈ ['[', '\x7b', '"', '\''], d.isDigit = false ∧ d ≠ '-' :=
        List.all_iff_forall_prop.mp (by decide)
      obtain ⟨hdigit, hminus⟩ := hnone c hc
      exact Scalar.not_mem_written hdigit hminus n (hwritten ▸ List.mem_cons_self)
  | boolean b =>
    cases b with
    | false =>
      exact value?_scalarText (by decide) (List.all_iff_forall_prop.mp (by decide)) rfl _ _
    | true =>
      exact value?_scalarText (by decide) (List.all_iff_forall_prop.mp (by decide)) rfl _ _
  | array fromHeaders items =>
    cases fromHeaders with
    | true => exact hv.elim
    | false =>
      cases items with
      | nil => rfl
      | cons item items => exact hv.elim
  | float x => exact hv.elim
  | datetime text => exact hv.elim
  | table origin items => exact hv.elim

/-! ## Keys -/

theorem key?_basic (text rest : List Char) :
    Quoted.key? (Writer.basic text ++ rest) = some (text, rest) := by
  have hshape : Writer.basic text ++ rest = '"' :: (Writer.escaped false 0 text ++ '"' :: rest) := by
    simp [Writer.basic]
  have hle := length_le_escaped false 0 text
  rw [hshape, Quoted.key?, basic?_escaped]
  rw [List.length_append]
  omega

theorem key?_literal {text : List Char} (h : ∀ c ∈ text, Quoted.isPlain c = true ∧ c ≠ '\'')
    (rest : List Char) : Quoted.key? (Writer.literal text ++ rest) = some (text, rest) := by
  have hshape : Writer.literal text ++ rest = '\'' :: (text ++ '\'' :: rest) := by
    simp [Writer.literal]
  rw [hshape, Quoted.key?, literal?_append h]

/-- What follows a key does not go on with it. -/
def EndsKey (rest : List Char) : Prop := ∃ c more, rest = c :: more ∧ isBare c = false

/-- A key is written bare or between quotes. -/
theorem key_cases (name : String) :
    (Writer.key name = name.toList ∧ name.toList ≠ [] ∧ ∀ c ∈ name.toList, isBare c = true) ∨
    (∃ c more, Writer.key name = c :: more ∧ (c = '"' ∨ c = '\'')) ∧
      ∀ rest, Quoted.key? (Writer.key name ++ rest) = some (name.toList, rest) := by
  unfold Writer.key
  dsimp only
  split
  · rename_i h
    simp only [Bool.and_eq_true, Bool.not_eq_true', List.isEmpty_eq_false_iff, List.all_eq_true] at h
    exact .inl ⟨rfl, h⟩
  split
  · exact .inr ⟨⟨'"', _, rfl, .inl rfl⟩, key?_basic name.toList⟩
  split
  · rename_i h
    simp only [Bool.and_eq_true, Bool.not_eq_true', List.any_eq_false, Bool.or_eq_true,
      decide_eq_true_eq, not_or] at h
    obtain ⟨hcontrol, hquote⟩ := h
    refine .inr ⟨⟨'\'', _, rfl, .inr rfl⟩, key?_literal fun c hc => ?_⟩
    obtain ⟨hplain, hbreak⟩ := hcontrol c hc
    refine ⟨isPlain_of_not_control (by simpa using hplain) hbreak, ?_⟩
    rintro rfl
    simp [hc] at hquote
  · exact .inr ⟨⟨'"', _, rfl, .inl rfl⟩, key?_basic name.toList⟩

theorem keyPart?_key (name : String) {rest : List Char} (hrest : EndsKey rest) :
    keyPart? (Writer.key name ++ rest) = some (name, rest) := by
  obtain ⟨d, after, rfl, hd⟩ := hrest
  rcases key_cases name with ⟨hkey, hne, hbare⟩ | ⟨⟨c, more, hkey, hc⟩, hread⟩
  · have htake : (name.toList ++ d :: after).takeWhile isBare = name.toList := by
      rw [List.takeWhile_append_of_pos hbare, List.takeWhile_cons_of_neg (by simp [hd]),
        List.append_nil]
    have hdrop : (name.toList ++ d :: after).dropWhile isBare = d :: after := by
      rw [List.dropWhile_append_of_pos hbare, List.dropWhile_cons_of_neg (by simp [hd])]
    rw [hkey, keyPart?, htake, hdrop]
    split
    · contradiction
    · rw [String.ofList_toList]
  · have htake : (Writer.key name ++ d :: after).takeWhile isBare = [] := by
      rw [hkey, List.cons_append, List.takeWhile_cons_of_neg]
      rcases hc with rfl | rfl <;> decide
    rw [keyPart?, htake]
    dsimp only
    rw [hread, Option.map_some, String.ofList_toList]

/-- A character that a key or header starts with is no blank and no byte order mark, and starts
    neither comment nor line break. -/
def StartsLine (c : Char) : Prop := Quoted.isBlank c = false ∧ c ∉ ['#', '\n', '\r', '\ufeff']

theorem startsLine_of_isBare {c : Char} (hc : isBare c = true) : StartsLine c := by
  have hnone : ∀ d ∈ [' ', '\t', '#', '\n', '\r', '\ufeff'], isBare d = false :=
    List.all_iff_forall_prop.mp (by decide)
  have hne (d : Char) (hd : d ∈ [' ', '\t', '#', '\n', '\r', '\ufeff']) : c ≠ d := by
    rintro rfl
    rw [hnone c hd] at hc
    cases hc
  refine ⟨?_, fun hmem => hne c (List.mem_cons_of_mem _ (List.mem_cons_of_mem _ hmem)) rfl⟩
  simp [Quoted.isBlank, hne ' ' (by decide), hne '\t' (by decide)]

theorem exists_key_eq (name : String) :
    ∃ c more, Writer.key name = c :: more ∧ StartsLine c ∧ c ≠ '[' := by
  rcases key_cases name with ⟨hkey, hne, hbare⟩ | ⟨⟨c, more, hkey, hc⟩, -⟩
  · obtain ⟨c, more, hname⟩ := List.exists_cons_of_ne_nil hne
    have hc := hbare c (hname ▸ List.mem_cons_self)
    refine ⟨c, more, hkey.trans hname, startsLine_of_isBare hc, ?_⟩
    rintro rfl
    exact absurd hc (by decide)
  · refine ⟨c, more, hkey, ?_⟩
    rcases hc with rfl | rfl
    · exact ⟨⟨by decide, by decide⟩, by decide⟩
    · exact ⟨⟨by decide, by decide⟩, by decide⟩

theorem skipBlanks_cons {c : Char} (hc : Quoted.isBlank c = false) (rest : List Char) :
    skipBlanks (c :: rest) = c :: rest := List.dropWhile_cons_of_neg (by simp [hc])

theorem skipBlanks_key (name : String) (rest : List Char) :
    skipBlanks (Writer.key name ++ rest) = Writer.key name ++ rest := by
  obtain ⟨c, more, hkey, hc, -⟩ := exists_key_eq name
  rw [hkey, List.cons_append, skipBlanks_cons hc.1]

/-- The parts of a key that is written with dots. -/
theorem keyParts?_dottedKey {path : List String} (hne : path ≠ []) {rest : List Char}
    (hrest : EndsKey rest) (hdot : ∀ more, skipBlanks rest ≠ '.' :: more) {fuel : Nat}
    (hfuel : path.length ≤ fuel) :
    keyParts? fuel (Writer.dottedKey path ++ rest) = some (path, skipBlanks rest) := by
  induction path generalizing fuel with
  | nil => exact absurd rfl hne
  | cons name path ih =>
    obtain ⟨fuel, rfl⟩ := Nat.exists_eq_add_one_of_ne_zero (Nat.ne_of_gt (Nat.zero_lt_of_lt hfuel))
    cases path with
    | nil =>
      have hshape : Writer.dottedKey [name] = Writer.key name := by simp [Writer.dottedKey]
      rw [hshape, keyParts?, skipBlanks_key, keyPart?_key name hrest]
      simp only [Option.bind_eq_bind, Option.bind_some]
      rfl
    | cons next path =>
      have hshape : Writer.dottedKey (name :: next :: path) ++ rest =
          Writer.key name ++ '.' :: (Writer.dottedKey (next :: path) ++ rest) := by
        simp [Writer.dottedKey, List.intercalate]
      have hparts := ih (List.cons_ne_nil next path) (Nat.le_of_succ_le_succ hfuel)
      have hends : EndsKey ('.' :: (Writer.dottedKey (next :: path) ++ rest)) :=
        ⟨'.', _, rfl, by decide⟩
      rw [hshape, keyParts?, skipBlanks_key, keyPart?_key name hends]
      simp only [Option.bind_eq_bind, Option.bind_some]
      rw [skipBlanks_cons (by decide)]
      show (keyParts? fuel (Writer.dottedKey (next :: path) ++ rest)).bind _ = _
      rw [hparts]
      rfl

theorem key?_dottedKey (path : List String) (name : String) {rest : List Char}
    (hrest : EndsKey rest) (hdot : ∀ more, skipBlanks rest ≠ '.' :: more)
    (hlength : path.length + 1 < maxDepth) :
    key? (Writer.dottedKey (path ++ [name]) ++ rest) = some ((path, name), skipBlanks rest) := by
  have hfuel : (path ++ [name]).length ≤ maxDepth - 1 := by
    rw [List.length_append, List.length_singleton]
    omega
  rw [key?, keyParts?_dottedKey (by simp) hrest hdot hfuel]
  simp

/-! ## Lines -/

/-- What a line says. -/
inductive Line where
  | blank
  /-- A key with its value. -/
  | value (key : String) (v : Value)
  /-- The header of a table, or of another row of an array of tables. -/
  | header (row : Bool) (path : List String) (key : String)

namespace Line

/-- The line as it is written. -/
def text : Line → List Char
  | blank => []
  | value key v => Writer.key key ++ " = ".toList ++ Writer.scalar v
  | header false path key => '[' :: Writer.dottedKey (path ++ [key]) ++ [']']
  | header true path key => ['[', '['] ++ Writer.dottedKey (path ++ [key]) ++ [']', ']']

/-- What has been read after the line. -/
def apply (s : State) : Line → Option State
  | blank => some s
  | value key v =>
    (Items.insertAt s.section_ [] key v s.items).map fun items => { s with items }
  | header false path key =>
    (Items.openTable path key s.items).map fun items => ⟨items, path ++ [key]⟩
  | header true path key =>
    (Items.openRow path key s.items).map fun items => ⟨items, path ++ [key]⟩

/-- Whether the line can be read back. -/
def Legible : Line → Prop
  | blank => True
  | value _ v => v.Simple
  | header _ path _ => path.length + 1 < maxDepth

end Line

theorem lineEnd?_break (rest : List Char) : lineEnd? ('\n' :: rest) = some rest := rfl

/-- A simple value starts with something. -/
theorem exists_scalar_eq {v : Value} (hv : v.Simple) :
    ∃ c more, Writer.scalar v = c :: more ∧ Quoted.isBlank c = false := by
  cases v with
  | string text =>
    obtain ⟨c, more, hwritten, rfl | rfl⟩ := exists_quoted_eq text.toList
    · exact ⟨'"', more, hwritten, by decide⟩
    · exact ⟨'\'', more, hwritten, by decide⟩
  | integer n =>
    rw [Writer.scalar, Scalar.toList_toString]
    have htext := Scalar.ofText?_written hv.1 hv.2
    cases hwritten : Scalar.written n with
    | nil =>
      rw [hwritten] at htext
      cases htext
    | cons c more =>
      refine ⟨c, more, rfl, ?_⟩
      have hmem : c ∈ Scalar.written n := hwritten ▸ List.mem_cons_self
      have hne (d : Char) (hdigit : d.isDigit = false) (hminus : d ≠ '-') : c ≠ d := by
        rintro rfl
        exact Scalar.not_mem_written hdigit hminus n hmem
      simp [Quoted.isBlank, hne ' ' (by decide) (by decide), hne '\t' (by decide) (by decide)]
  | boolean b => cases b <;> exact ⟨_, _, rfl, by decide⟩
  | array fromHeaders items => exact ⟨'[', _, rfl, by decide⟩
  | float x => exact hv.elim
  | datetime text => exact hv.elim
  | table origin items => exact hv.elim

theorem keyLine?_value (s : State) (name : String) {v : Value} (hv : v.Simple) (rest : List Char) :
    keyLine? s ((Line.value name v).text ++ '\n' :: rest) =
      ((Line.value name v).apply s).map fun s => (s, rest) := by
  have hshape : (Line.value name v).text ++ '\n' :: rest = Writer.dottedKey ([] ++ [name]) ++
      (' ' :: '=' :: ' ' :: (Writer.scalar v ++ '\n' :: rest)) := by
    simp [Line.text, Writer.dottedKey]
  have hends : EndsKey (' ' :: '=' :: ' ' :: (Writer.scalar v ++ '\n' :: rest)) :=
    ⟨' ', _, rfl, by decide⟩
  have hkey := key?_dottedKey [] name hends (fun more h => by cases h) (by decide)
  have hblanks : skipBlanks (' ' :: (Writer.scalar v ++ '\n' :: rest)) =
      Writer.scalar v ++ '\n' :: rest := by
    obtain ⟨c, more, hwritten, hc⟩ := exists_scalar_eq hv
    rw [hwritten, List.cons_append]
    exact skipBlanks_cons hc _
  have hequals : skipBlanks (' ' :: '=' :: ' ' :: (Writer.scalar v ++ '\n' :: rest)) =
      '=' :: ' ' :: (Writer.scalar v ++ '\n' :: rest) := rfl
  rw [hequals] at hkey
  rw [hshape, keyLine?, hkey]
  simp only [Option.bind_eq_bind, Option.bind_some]
  have hdepth : maxDepth - 1 = 78 + 1 := rfl
  rw [hblanks, hdepth, value?_scalar hv]
  simp only [Option.bind_some, lineEnd?_break, Line.apply]
  cases Items.insertAt s.section_ [] name v s.items <;> rfl

theorem headerLine?_header (s : State) (row : Bool) {path : List String} (name : String)
    (hlength : path.length + 1 < maxDepth) (rest : List Char) :
    headerLine? s row (Writer.dottedKey (path ++ [name]) ++
        ((if row then [']', ']'] else [']']) ++ '\n' :: rest)) =
      ((Line.header row path name).apply s).map fun s => (s, rest) := by
  cases row with
  | false =>
    have hends : EndsKey (']' :: '\n' :: rest) := ⟨']', _, rfl, by decide⟩
    have hkey := key?_dottedKey path name hends (fun more h => by cases h) hlength
    have hbracket : skipBlanks (']' :: '\n' :: rest) = ']' :: '\n' :: rest := rfl
    rw [hbracket] at hkey
    unfold headerLine?
    simp only [Bool.false_eq_true, if_false, List.singleton_append, hkey, Option.bind_eq_bind,
      Option.bind_some, lineEnd?_break, Line.apply]
    cases Items.openTable path name s.items <;> rfl
  | true =>
    have hends : EndsKey (']' :: ']' :: '\n' :: rest) := ⟨']', _, rfl, by decide⟩
    have hkey := key?_dottedKey path name hends (fun more h => by cases h) hlength
    have hbracket : skipBlanks (']' :: ']' :: '\n' :: rest) = ']' :: ']' :: '\n' :: rest := rfl
    rw [hbracket] at hkey
    unfold headerLine?
    simp only [if_true, List.cons_append, List.nil_append, hkey, Option.bind_eq_bind,
      Option.bind_some, lineEnd?_break, Line.apply]
    cases Items.openRow path name s.items <;> rfl

theorem exists_dottedKey_eq (path : List String) (name : String) :
    ∃ c more, Writer.dottedKey (path ++ [name]) = c :: more ∧ c ≠ '[' := by
  have hfirst (first : String) (others : List String) :
      ∃ c more, Writer.dottedKey (first :: others) = c :: more ∧ c ≠ '[' := by
    obtain ⟨c, more, hkey, -, hc⟩ := exists_key_eq first
    cases others with
    | nil => exact ⟨c, more, by simp [Writer.dottedKey, hkey], hc⟩
    | cons next others =>
      exact ⟨c, _, by rw [Writer.dottedKey, List.map_cons, List.map_cons,
        List.intercalate_cons_cons, hkey, List.cons_append, List.cons_append], hc⟩
  cases path with
  | nil => exact hfirst name []
  | cons first path => exact hfirst first (path ++ [name])

/-- A line starts with something that is neither blank nor comment nor line break, and is read as
    what it says. -/
theorem line?_text (s : State) {l : Line} (hl : l.Legible) (hblank : l ≠ .blank)
    (rest : List Char) : (∃ c more, l.text = c :: more ∧ StartsLine c) ∧
      line? s (l.text ++ '\n' :: rest) = (l.apply s).map fun s => (s, rest) := by
  have hbracket : StartsLine '[' := ⟨by decide, by decide⟩
  cases l with
  | blank => exact absurd rfl hblank
  | value name v =>
    obtain ⟨c, more, hkey, hc, hne⟩ := exists_key_eq name
    have htext : (Line.value name v).text = c :: (more ++ " = ".toList ++ Writer.scalar v) := by
      rw [Line.text, hkey]
      rfl
    refine ⟨⟨c, _, htext, hc⟩, ?_⟩
    have hread := keyLine?_value s name hl rest
    rw [htext, List.cons_append] at hread ⊢
    rw [← hread]
    unfold line?
    split
    · rename_i heq
      exact absurd (List.cons.inj heq).1 hne
    · rename_i heq
      exact absurd (List.cons.inj heq).1 hne
    · rfl
  | header row path name =>
    have hread := headerLine?_header s row name hl rest
    cases row with
    | true =>
      refine ⟨⟨'[', _, rfl, hbracket⟩, ?_⟩
      rw [← hread]
      simp [Line.text, line?]
    | false =>
      refine ⟨⟨'[', _, rfl, hbracket⟩, ?_⟩
      have hshape : (Line.header false path name).text ++ '\n' :: rest =
          '[' :: (Writer.dottedKey (path ++ [name]) ++ ([']'] ++ '\n' :: rest)) := by
        simp [Line.text]
      rw [hshape, ← hread]
      unfold line?
      split
      · rename_i heq
        obtain ⟨c, more, hkey, hc⟩ := exists_dottedKey_eq path name
        rw [hkey] at heq
        exact absurd (List.cons.inj (List.cons.inj heq).2).1 hc
      · rename_i heq
        rw [← (List.cons.inj heq).2]
        rfl
      · rename_i hother
        exact absurd rfl (hother _)

theorem lineEnd?_of_startsLine {c : Char} (hc : StartsLine c) (rest : List Char) :
    lineEnd? (c :: rest) = none := by
  obtain ⟨hblank, hnone⟩ := hc
  simp only [List.mem_cons, List.not_mem_nil, or_false, not_or] at hnone
  obtain ⟨hcomment, hbreak, hreturn, -⟩ := hnone
  have hskip : skipComment (skipBlanks (c :: rest)) = c :: rest := by
    rw [skipBlanks_cons hblank]
    unfold skipComment
    split
    · rename_i heq
      exact absurd (List.cons.inj heq).1 hcomment
    · rfl
  rw [lineEnd?, hskip]
  dsimp only
  unfold Quoted.lineBreak?
  split
  · rename_i heq
    exact absurd (List.cons.inj heq).1 hbreak
  · rename_i heq
    exact absurd (List.cons.inj heq).1 hreturn
  · rfl

/-- One line is read, and then the others. -/
theorem lines?_line (s : State) {l : Line} (hl : l.Legible) (rest : List Char) (fuel : Nat) :
    lines? (fuel + 1) s (l.text ++ '\n' :: rest) = (l.apply s).bind fun s => lines? fuel s rest := by
  by_cases hblank : l = .blank
  · subst hblank
    rfl
  · obtain ⟨⟨c, more, htext, hc⟩, hread⟩ := line?_text s hl hblank rest
    rw [htext, List.cons_append] at hread ⊢
    rw [lines?, skipBlanks_cons hc.1]
    dsimp only
    rw [lineEnd?_of_startsLine hc, hread]
    cases l.apply s <;> rfl

/-- What has been read after some lines. -/
def Line.run (s : State) (lines : List Line) : Option State := lines.foldlM Line.apply s

/-- A document is read by doing what its lines say. -/
theorem lines?_text {lines : List Line} (hlines : ∀ l ∈ lines, l.Legible) (s : State) {fuel : Nat}
    (hfuel : (lines.flatMap fun l => l.text ++ ['\n']).length < fuel) :
    lines? fuel s (lines.flatMap fun l => l.text ++ ['\n']) =
      (Line.run s lines).map State.items := by
  induction lines generalizing s fuel with
  | nil =>
    obtain ⟨fuel, rfl⟩ := Nat.exists_eq_add_one_of_ne_zero (Nat.ne_of_gt hfuel)
    rfl
  | cons l lines ih =>
    obtain ⟨fuel, rfl⟩ := Nat.exists_eq_add_one_of_ne_zero (Nat.ne_of_gt (Nat.zero_lt_of_lt hfuel))
    obtain ⟨hl, hrest⟩ := List.forall_mem_cons.mp hlines
    have hshape : (l :: lines).flatMap (fun l => l.text ++ ['\n']) =
        l.text ++ '\n' :: lines.flatMap fun l => l.text ++ ['\n'] := by
      simp
    rw [hshape] at hfuel ⊢
    rw [List.length_append, List.length_cons] at hfuel
    rw [lines?_line s hl, Line.run, List.foldlM_cons]
    cases l.apply s with
    | none => rfl
    | some s => exact ih hrest s (by omega)

end ShardMesh.Toml
