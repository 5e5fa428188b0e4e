import ShardMesh.Toml.Writer

/-!
# Quoted texts read back

A text that is written between quotes is read as the text, in whichever style it was written
(`text?_quoted`). Without escapes that is so as long as no quote is in the way; escapes stand for single
characters; over several lines, a run of one or two quotes belongs to the text.
-/

namespace ShardMesh.Toml

open Quoted Writer

/-! ## Characters -/

theorem isPlain_of_not_control {c : Char} (hc : isControl c = false) (hbreak : c ≠ '\n') :
    isPlain c = true := by
  by_cases htab : c = '\t'
  · rw [htab]
    rfl
  · simp only [isControl, htab, hbreak, ne_eq, not_false_eq_true, decide_true, Bool.and_true,
      Bool.or_eq_false_iff, decide_eq_false_iff_not, Nat.not_lt] at hc
    simp [isPlain, hc]

theorem toNat_lt_of_control {c : Char} (hc : isControl c = true) : c.toNat < 128 := by
  simp only [isControl, Bool.or_eq_true, Bool.and_eq_true, decide_eq_true_eq] at hc
  omega

theorem charOf?_toNat (c : Char) : charOf? c.toNat = some c := by
  have hvalid : c.toNat.isValidChar := c.valid
  rw [charOf?, if_pos hvalid, Char.ofNat_toNat]

/-- The four digits of a code point below 128 denote its character. -/
theorem codePoint?_codePoint {c : Char} (hc : c.toNat < 128) (rest : List Char) :
    codePoint? 4 (codePoint c.toNat ++ rest) = some c := by
  have hall : ∀ n : Fin 128, (codePoint n).length = 4 ∧
      (codePoint n).all (fun c => (Bytes.hexValue? c).isSome) ∧
      (codePoint n).foldl (fun n c => 16 * n + (Bytes.hexValue? c).getD 0) 0 = n.val := by
    decide +kernel
  obtain ⟨hlength, hdigits, hvalue⟩ := hall ⟨c.toNat, hc⟩
  have htake : (codePoint c.toNat ++ rest).take 4 = codePoint c.toNat := List.take_left' hlength
  rw [codePoint?, htake, if_pos ⟨hlength, hdigits⟩, hvalue, charOf?_toNat]

/-- What is written for a character that is not a double quote. -/
def escapedChar (severalLines : Bool) (c : Char) : List Char :=
  if c = '\x08' then ['\\', 'b']
  else if c = '\t' then ['\\', 't']
  else if c = '\n' ∧ !severalLines then ['\\', 'n']
  else if c = '\x0c' then ['\\', 'f']
  else if c = '\r' then ['\\', 'r']
  else if c = '\\' then ['\\', '\\']
  else if isControl c then '\\' :: 'u' :: codePoint c.toNat
  else [c]

theorem escaped_cons {c : Char} (hc : c ≠ '"') (severalLines : Bool) (run : Nat)
    (rest : List Char) : escaped severalLines run (c :: rest) =
      escapedChar severalLines c ++ escaped severalLines 0 rest := by
  rw [escaped, if_neg hc]
  rfl

/-- A character is written as it is, or as an escape that stands for it. -/
theorem escapedChar_cases (severalLines : Bool) (c : Char) :
    (escapedChar severalLines c = [c] ∧ c ≠ '\\' ∧
      (isPlain c = true ∨ c = '\n' ∧ severalLines = true)) ∨
    ∃ d e, escapedChar severalLines c = '\\' :: d :: e ∧ isBlank d = false ∧ d ≠ '\n' ∧ d ≠ '\r' ∧
      ∀ rest, escape? (d :: e ++ rest) = some (c, e.length + 1) := by
  unfold escapedChar
  split
  · rename_i hc
    exact .inr ⟨'b', [], rfl, by decide, by decide, by decide, fun rest => by rw [hc]; rfl⟩
  split
  · rename_i hc
    exact .inr ⟨'t', [], rfl, by decide, by decide, by decide, fun rest => by rw [hc]; rfl⟩
  split
  · rename_i hc
    exact .inr ⟨'n', [], rfl, by decide, by decide, by decide, fun rest => by rw [hc.1]; rfl⟩
  split
  · rename_i hc
    exact .inr ⟨'f', [], rfl, by decide, by decide, by decide, fun rest => by rw [hc]; rfl⟩
  split
  · rename_i hc
    exact .inr ⟨'r', [], rfl, by decide, by decide, by decide, fun rest => by rw [hc]; rfl⟩
  split
  · rename_i hc
    exact .inr ⟨'\\', [], rfl, by decide, by decide, by decide, fun rest => by rw [hc]; rfl⟩
  rename_i hbreak _ _ hbackslash
  split
  · rename_i hcontrol
    have hlt := toNat_lt_of_control hcontrol
    have hlength : ∀ n : Fin 128, (codePoint n).length = 4 := by decide +kernel
    refine .inr ⟨'u', codePoint c.toNat, rfl, by decide, by decide, by decide, fun rest => ?_⟩
    rw [List.cons_append, escape?, codePoint?_codePoint hlt, hlength ⟨c.toNat, hlt⟩]
    rfl
  · rename_i hcontrol
    refine .inl ⟨rfl, hbackslash, ?_⟩
    by_cases hc : c = '\n'
    · exact .inr ⟨hc, by simpa [hc] using hbreak⟩
    · exact .inl (isPlain_of_not_control (by simpa using hcontrol) hc)

/-! ## On one line -/

theorem literal?_append {text : List Char} (h : ∀ c ∈ text, isPlain c = true ∧ c ≠ '\'')
    (rest : List Char) : literal? (text ++ '\'' :: rest) = some (text, rest) := by
  induction text with
  | nil => rfl
  | cons c text ih =>
    obtain ⟨⟨hplain, hquote⟩, hrest⟩ := List.forall_mem_cons.mp h
    rw [List.cons_append, literal?, if_neg hquote, if_pos hplain, ih hrest]
    rfl

/-- What is written for a character is read as the character. -/
theorem basic?_escapedChar {c : Char} (hc : c ≠ '"') (fuel : Nat) (rest : List Char) :
    basic? (fuel + 1) (escapedChar false c ++ rest) =
      (basic? fuel rest).map fun (text, after) => (c :: text, after) := by
  rcases escapedChar_cases false c with ⟨hwritten, hbackslash, hplain | ⟨-, hfalse⟩⟩ |
    ⟨d, e, hwritten, -, -, -, hescape⟩
  · rw [hwritten, List.singleton_append, basic?, if_neg hc, if_neg hbackslash, if_pos hplain]
  · cases hfalse
  · have hdrop : (d :: e ++ rest).drop (e.length + 1) = rest := List.drop_left' rfl
    rw [hwritten, List.cons_append, basic?, if_neg (by decide), if_pos rfl, hescape]
    simp only [Option.bind_eq_bind, Option.bind_some, hdrop]
    cases basic? fuel rest <;> rfl

theorem basic?_escaped (text rest : List Char) {fuel : Nat} (run : Nat)
    (hfuel : text.length < fuel) :
    basic? fuel (escaped false run text ++ '"' :: rest) = some (text, rest) := by
  induction text generalizing fuel run with
  | nil =>
    obtain ⟨fuel, rfl⟩ := Nat.exists_eq_add_one_of_ne_zero (Nat.ne_of_gt hfuel)
    rfl
  | cons c text ih =>
    obtain ⟨fuel, rfl⟩ := Nat.exists_eq_add_one_of_ne_zero (Nat.ne_of_gt (Nat.zero_lt_of_lt hfuel))
    have hrest (run : Nat) := ih run (Nat.lt_of_succ_lt_succ hfuel)
    by_cases hc : c = '"'
    · subst hc
      have hwritten : escaped false run ('"' :: text) = '\\' :: '"' :: escaped false 0 text := by
        simp [escaped]
      rw [hwritten, List.cons_append, basic?, if_neg (by decide), if_pos rfl]
      simp only [List.cons_append, escape?, Option.bind_eq_bind, Option.bind_some, List.drop_one,
        List.tail_cons, hrest]
      rfl
    · rw [escaped_cons hc, List.append_assoc, basic?_escapedChar hc, hrest]
      rfl

/-- Escaping does not shorten a text. -/
theorem length_le_escaped (severalLines : Bool) (run : Nat) (text : List Char) :
    text.length ≤ (escaped severalLines run text).length := by
  induction text generalizing run with
  | nil => exact Nat.zero_le _
  | cons c text ih =>
    by_cases hc : c = '"'
    · subst hc
      rw [escaped, if_pos rfl]
      split
      · exact Nat.succ_le_succ (ih _)
      · exact Nat.succ_le_succ (Nat.le_succ_of_le (ih _))
    · have hone : 1 ≤ (escapedChar severalLines c).length := by
        rcases escapedChar_cases severalLines c with ⟨hwritten, -⟩ | ⟨d, e, hwritten, -⟩
        · rw [hwritten]
          exact Nat.le_refl 1
        · rw [hwritten]
          exact Nat.succ_le_succ (Nat.zero_le _)
      have hrest := ih 0
      rw [escaped_cons hc, List.length_append, List.length_cons]
      omega

/-! ## Over several lines -/

theorem lineBreak?_of_plain {c : Char} (hc : isPlain c = true) (rest : List Char) :
    lineBreak? (c :: rest) = none := by
  unfold lineBreak?
  split
  · rename_i heq
    rw [(List.cons.inj heq).1] at hc
    exact absurd hc (by decide)
  · rename_i heq
    rw [(List.cons.inj heq).1] at hc
    exact absurd hc (by decide)
  · rfl

/-- A character that is neither quote nor escape belongs to the text. -/
theorem lines?_cons {quote c : Char} {escapes : Bool} (hquote : c ≠ quote)
    (hescape : ¬(c = '\\' ∧ escapes = true)) (hplain : isPlain c = true ∨ c = '\n') (fuel : Nat)
    (rest : List Char) : lines? quote escapes (fuel + 1) (c :: rest) =
      (lines? quote escapes fuel rest).map fun (text, after) => (c :: text, after) := by
  rw [lines?, if_neg hquote, if_neg hescape]
  rcases hplain with hplain | rfl
  · rw [lineBreak?_of_plain hplain, if_pos hplain]
  · rfl

theorem takeWhile_run {quote d : Char} (hd : d ≠ quote) (k : Nat) (rest : List Char) :
    (List.replicate k quote ++ d :: rest).takeWhile (· = quote) = List.replicate k quote := by
  induction k with
  | zero => rw [List.replicate_zero, List.nil_append, List.takeWhile_cons_of_neg (by simpa using hd)]
  | succ k ih =>
    rw [List.replicate_succ, List.cons_append, List.takeWhile_cons_of_pos (by simp), ih]

/-- One or two quotes in a row belong to the text. -/
theorem lines?_run {quote d : Char} (hd : d ≠ quote) {k : Nat} (hk : k < 2) (escapes : Bool)
    (fuel : Nat) (rest : List Char) :
    lines? quote escapes (fuel + 1) (List.replicate (k + 1) quote ++ d :: rest) =
      (lines? quote escapes fuel (d :: rest)).map fun (text, after) =>
        (List.replicate (k + 1) quote ++ text, after) := by
  have hrun := takeWhile_run hd (k + 1) rest
  have hdrop : (List.replicate k quote ++ d :: rest).drop k = d :: rest :=
    List.drop_left' List.length_replicate
  rw [List.replicate_succ, List.cons_append] at hrun ⊢
  rw [lines?, if_pos rfl, hrun, List.length_cons, List.length_replicate, if_pos (by omega),
    Nat.add_sub_cancel, hdrop]
  rfl

/-- Three quotes end the text, and up to two before them belong to it. -/
theorem lines?_closing {quote d : Char} (hd : d ≠ quote) {k : Nat} (hk : k ≤ 2) (escapes : Bool)
    (fuel : Nat) (rest : List Char) :
    lines? quote escapes (fuel + 1) (List.replicate (k + 3) quote ++ d :: rest) =
      some (List.replicate k quote, d :: rest) := by
  have hrun := takeWhile_run hd (k + 3) rest
  have hdrop : (List.replicate (k + 3) quote ++ d :: rest).drop (k + 3) = d :: rest :=
    List.drop_left' List.length_replicate
  have hclosing : closing? quote (List.replicate (k + 3) quote ++ d :: rest) =
      some (List.replicate k quote, d :: rest) := by
    rw [closing?, hrun, List.length_replicate, if_pos (by omega), hdrop, Nat.add_sub_cancel]
  rw [List.replicate_succ, List.cons_append] at hrun hclosing ⊢
  rw [lines?, if_pos rfl, hrun, List.length_cons, List.length_replicate, if_neg (by omega), hclosing]

/-- A text is taken apart into runs of quotes and other characters; of a long run, three quotes are
    taken at a time. -/
theorem run_induction (quote : Char) {motive : List Char → Prop} (nil : motive [])
    (other : ∀ c text, c ≠ quote → motive text → motive (c :: text))
    (last : ∀ k, k < 2 → motive (List.replicate (k + 1) quote))
    (run : ∀ k c text, k < 2 → c ≠ quote → motive (c :: text) →
      motive (List.replicate (k + 1) quote ++ c :: text))
    (more : ∀ text, motive text → motive (quote :: quote :: quote :: text)) :
    ∀ text, motive text
  | [] => nil
  | [c] => by
    by_cases hc : c = quote
    · rw [hc]
      exact last 0 (by decide)
    · exact other c [] hc nil
  | [c, d] => by
    by_cases hc : c = quote
    · by_cases hd : d = quote
      · rw [hc, hd]
        exact last 1 (by decide)
      · rw [hc]
        exact run 0 d [] (by decide) hd (run_induction quote nil other last run more [d])
    · exact other c [d] hc (run_induction quote nil other last run more [d])
  | c :: d :: e :: text => by
    by_cases hc : c = quote
    · by_cases hd : d = quote
      · by_cases he : e = quote
        · rw [hc, hd, he]
          exact more text (run_induction quote nil other last run more text)
        · rw [hc, hd]
          exact run 1 e text (by decide) he (run_induction quote nil other last run more (e :: text))
      · rw [hc]
        exact run 0 d (e :: text) (by decide) hd
          (run_induction quote nil other last run more (d :: e :: text))
    · exact other c (d :: e :: text) hc (run_induction quote nil other last run more (d :: e :: text))

/-- An escape stands for a character, unless it is at the end of a line. -/
theorem lines?_escape {c d : Char} {e : List Char} (rest : List Char)
    (hblank : isBlank d = false) (hbreak : d ≠ '\n') (hreturn : d ≠ '\r')
    (hescape : escape? (d :: e ++ rest) = some (c, e.length + 1)) (fuel : Nat) :
    lines? '"' true (fuel + 1) ('\\' :: (d :: e ++ rest)) =
      (lines? '"' true fuel rest).map fun (text, after) => (c :: text, after) := by
  have hdrop : (d :: e ++ rest).drop (e.length + 1) = rest := List.drop_left' rfl
  have hnone : lineBreak? ((d :: e ++ rest).dropWhile isBlank) = none := by
    rw [List.cons_append, List.dropWhile_cons_of_neg (by rw [hblank]; decide)]
    unfold lineBreak?
    split
    · rename_i heq
      exact absurd (List.cons.inj heq).1 hbreak
    · rename_i heq
      exact absurd (List.cons.inj heq).1 hreturn
    · rfl
  rw [lines?, if_neg (by decide), if_pos ⟨rfl, rfl⟩, hnone]
  simp only [hescape, Option.bind_eq_bind, Option.bind_some, hdrop]
  cases lines? '"' true fuel rest <;> rfl

theorem lines?_escapedChar {c : Char} (hc : c ≠ '"') (fuel : Nat) (rest : List Char) :
    lines? '"' true (fuel + 1) (escapedChar true c ++ rest) =
      (lines? '"' true fuel rest).map fun (text, after) => (c :: text, after) := by
  rcases escapedChar_cases true c with ⟨hwritten, hbackslash, hplain⟩ |
    ⟨d, e, hwritten, hblank, hbreak, hreturn, hescape⟩
  · rw [hwritten]
    exact lines?_cons hc (fun h => hbackslash h.1) (hplain.imp_right And.left) fuel rest
  · rw [hwritten]
    exact lines?_escape rest hblank hbreak hreturn (hescape rest) fuel

theorem exists_escapedChar_eq {c : Char} (hc : c ≠ '"') (severalLines : Bool) :
    ∃ d rest, escapedChar severalLines c = d :: rest ∧ d ≠ '"' := by
  rcases escapedChar_cases severalLines c with ⟨hwritten, -⟩ | ⟨d, e, hwritten, -⟩
  · exact ⟨c, [], hwritten, hc⟩
  · exact ⟨'\\', d :: e, hwritten, by decide⟩

/-- A text between three double quotes. -/
theorem lines?_escaped {d : Char} (hd : d ≠ '"') (rest text : List Char) :
    ∀ fuel, text.length < fuel →
      lines? '"' true fuel (escaped true 0 text ++ '"' :: '"' :: '"' :: d :: rest) =
        some (text, d :: rest) := by
  induction text using run_induction '"' with
  | nil =>
    rintro (_ | fuel) hfuel
    · cases hfuel
    · exact lines?_closing hd (by decide : 0 ≤ 2) true fuel rest
  | other c text hc ih =>
    rintro (_ | fuel) hfuel
    · cases hfuel
    · rw [escaped_cons hc, List.append_assoc, lines?_escapedChar hc,
        ih fuel (Nat.lt_of_succ_lt_succ hfuel)]
      rfl
  | last k hk =>
    rintro (_ | fuel) hfuel
    · cases hfuel
    · have hwritten : escaped true 0 (List.replicate (k + 1) '"') = List.replicate (k + 1) '"' := by
        rcases Nat.le_one_iff_eq_zero_or_eq_one.mp (Nat.le_of_lt_succ hk) with rfl | rfl <;> rfl
      have hclosing := lines?_closing hd (Nat.succ_le_of_lt hk) true fuel rest
      rw [← List.replicate_append_replicate, List.append_assoc] at hclosing
      rw [hwritten]
      exact hclosing
  | run k c text hk hc ih =>
    rintro (_ | fuel) hfuel
    · cases hfuel
    · have hwritten : escaped true 0 (List.replicate (k + 1) '"' ++ c :: text) =
          List.replicate (k + 1) '"' ++ escaped true 0 (c :: text) := by
        rcases Nat.le_one_iff_eq_zero_or_eq_one.mp (Nat.le_of_lt_succ hk) with rfl | rfl <;>
          simp [escaped, hc]
      have hshorter : (c :: text).length < fuel := by
        rw [List.length_append, List.length_replicate] at hfuel
        omega
      have hrest := ih fuel hshorter
      obtain ⟨e, more, hchar, he⟩ := exists_escapedChar_eq hc true
      rw [hwritten, List.append_assoc]
      rw [escaped_cons hc, hchar, List.append_assoc, List.cons_append] at hrest ⊢
      rw [lines?_run he hk, hrest]
      rfl
  | more text ih =>
    intro fuel hfuel
    obtain ⟨fuel, rfl⟩ : ∃ n, fuel = n + 2 := ⟨fuel - 2, by simp at hfuel; omega⟩
    have hwritten : escaped true 0 ('"' :: '"' :: '"' :: text) =
        '"' :: '"' :: '\\' :: '"' :: escaped true 0 text := by
      simp [escaped]
    have hrun := lines?_run (by decide : '\\' ≠ '"') (by decide : 1 < 2) true (fuel + 1)
      ('"' :: (escaped true 0 text ++ '"' :: '"' :: '"' :: d :: rest))
    have hescape := lines?_escape (c := '"') (d := '"') (e := [])
      (escaped true 0 text ++ '"' :: '"' :: '"' :: d :: rest) (by decide) (by decide) (by decide)
      rfl fuel
    rw [hwritten]
    refine hrun.trans ?_
    rw [List.cons_append, List.nil_append] at hescape
    rw [hescape, ih fuel (by simp at hfuel; omega)]
    rfl

/-! ### Runs of quotes -/

/-- One more character: the longest run, and the length of the run at the end. -/
def countRun (quote : Char) (counts : Nat × Nat) (c : Char) : Nat × Nat :=
  if c = quote then (max counts.1 (counts.2 + 1), counts.2 + 1) else (counts.1, 0)

theorem longestRun_eq (quote : Char) (text : List Char) :
    longestRun quote text = (text.foldl (countRun quote) (0, 0)).1 := rfl

theorem countRun_mono (quote : Char) {a b : Nat × Nat} (h : a.1 ≤ b.1) (h' : a.2 ≤ b.2)
    (c : Char) :
    (countRun quote a c).1 ≤ (countRun quote b c).1 ∧
      (countRun quote a c).2 ≤ (countRun quote b c).2 := by
  unfold countRun
  split
  · dsimp only
    omega
  · exact ⟨h, Nat.le_refl 0⟩

theorem foldl_countRun_mono (quote : Char) (text : List Char) {a b : Nat × Nat} (h : a.1 ≤ b.1)
    (h' : a.2 ≤ b.2) :
    (text.foldl (countRun quote) a).1 ≤ (text.foldl (countRun quote) b).1 := by
  induction text generalizing a b with
  | nil => exact h
  | cons c text ih =>
    obtain ⟨hlongest, hrun⟩ := countRun_mono quote h h' c
    exact ih hlongest hrun

theorem le_foldl_countRun (quote : Char) (text : List Char) (counts : Nat × Nat) :
    counts.1 ≤ (text.foldl (countRun quote) counts).1 := by
  induction text generalizing counts with
  | nil => exact Nat.le_refl _
  | cons c text ih =>
    have hone : counts.1 ≤ (countRun quote counts c).1 := by
      unfold countRun
      split
      · exact Nat.le_max_left ..
      · exact Nat.le_refl _
    exact Nat.le_trans hone (ih _)

theorem longestRun_append_right (quote : Char) (before text : List Char) :
    longestRun quote text ≤ longestRun quote (before ++ text) := by
  rw [longestRun_eq, longestRun_eq, List.foldl_append]
  exact foldl_countRun_mono quote text (Nat.zero_le _) (Nat.zero_le _)

theorem three_le_longestRun (quote : Char) (text : List Char) :
    3 ≤ longestRun quote (quote :: quote :: quote :: text) := by
  have hcounts : (quote :: quote :: quote :: text).foldl (countRun quote) (0, 0) =
      text.foldl (countRun quote) (3, 3) := by
    simp [countRun]
  rw [longestRun_eq, hcounts]
  exact le_foldl_countRun quote text (3, 3)

/-- A text between three single quotes, where at most two stand in a row. -/
theorem lines?_literal {d : Char} (hd : d ≠ '\'') (rest text : List Char) :
    ∀ fuel, text.length < fuel → (∀ c ∈ text, isControl c = false) → longestRun '\'' text ≤ 2 →
      lines? '\'' false fuel (text ++ '\'' :: '\'' :: '\'' :: d :: rest) =
        some (text, d :: rest) := by
  induction text using run_induction '\'' with
  | nil =>
    rintro (_ | fuel) hfuel - -
    · cases hfuel
    · exact lines?_closing hd (by decide : 0 ≤ 2) false fuel rest
  | other c text hc ih =>
    rintro (_ | fuel) hfuel hplain hrun
    · cases hfuel
    · obtain ⟨hchar, hrest⟩ := List.forall_mem_cons.mp hplain
      have hplain' : isPlain c = true ∨ c = '\n' := by
        by_cases hbreak : c = '\n'
        · exact .inr hbreak
        · exact .inl (isPlain_of_not_control hchar hbreak)
      rw [List.cons_append, lines?_cons hc (by simp) hplain', ih fuel (Nat.lt_of_succ_lt_succ hfuel)
        hrest (Nat.le_trans (longestRun_append_right '\'' [c] text) hrun)]
      rfl
  | last k hk =>
    rintro (_ | fuel) hfuel - -
    · cases hfuel
    · have hclosing := lines?_closing hd (Nat.succ_le_of_lt hk) false fuel rest
      rw [← List.replicate_append_replicate, List.append_assoc] at hclosing
      exact hclosing
  | run k c text hk hc ih =>
    rintro (_ | fuel) hfuel hplain hrun
    · cases hfuel
    · have hshorter : (c :: text).length < fuel := by
        rw [List.length_append, List.length_replicate] at hfuel
        omega
      have hrest := ih fuel hshorter (fun e he => hplain e (List.mem_append_right _ he))
        (Nat.le_trans (longestRun_append_right '\'' _ _) hrun)
      rw [List.cons_append] at hrest
      rw [List.append_assoc, List.cons_append, lines?_run hc hk, hrest]
      rfl
  | more text ih =>
    intro fuel hfuel hplain hrun
    have hthree := three_le_longestRun '\'' text
    omega

/-! ## All styles -/

/-- One quote opens a text on one line, unless two more follow. -/
theorem text?_double {rest : List Char} (h : ∀ more, rest ≠ '"' :: '"' :: more) :
    text? ('"' :: rest) = basic? (rest.length + 1) rest := by
  unfold text?
  split
  · rename_i heq
    exact absurd (List.cons.inj heq).2 (h _)
  · rename_i heq
    rw [(List.cons.inj heq).2]
  · rename_i heq
    cases heq
  · rename_i heq
    cases heq
  · rename_i hother _ _
    exact absurd rfl (hother rest)

theorem text?_single {rest : List Char} (h : ∀ more, rest ≠ '\'' :: '\'' :: more) :
    text? ('\'' :: rest) = literal? rest := by
  unfold text?
  split
  · rename_i heq
    cases heq
  · rename_i heq
    cases heq
  · rename_i heq
    exact absurd (List.cons.inj heq).2 (h _)
  · rename_i heq
    rw [(List.cons.inj heq).2]
  · rename_i hother
    exact absurd rfl (hother rest)

theorem exists_escaped_eq (c : Char) (text : List Char) :
    ∃ d more, escaped false 0 (c :: text) = d :: more ∧ d ≠ '"' := by
  by_cases hc : c = '"'
  · subst hc
    exact ⟨'\\', '"' :: escaped false 0 text, by simp [escaped], by decide⟩
  · obtain ⟨d, more, hchar, hd⟩ := exists_escapedChar_eq hc false
    exact ⟨d, more ++ escaped false 0 text, by rw [escaped_cons hc, hchar]; rfl, hd⟩

theorem text?_basic (text rest : List Char) :
    text? (basic text ++ '\n' :: rest) = some (text, '\n' :: rest) := by
  have hshape : basic text ++ '\n' :: rest =
      '"' :: (escaped false 0 text ++ '"' :: '\n' :: rest) := by
    simp [basic]
  have hle := length_le_escaped false 0 text
  rw [hshape, text?_double, basic?_escaped]
  · rw [List.length_append]
    omega
  · intro more hquotes
    cases text with
    | nil => cases hquotes
    | cons c text =>
      obtain ⟨d, rest', hwritten, hd⟩ := exists_escaped_eq c text
      rw [hwritten] at hquotes
      exact hd (List.cons.inj hquotes).1

theorem text?_literal {text : List Char} (h : ∀ c ∈ text, isPlain c = true ∧ c ≠ '\'')
    (rest : List Char) : text? (literal text ++ '\n' :: rest) = some (text, '\n' :: rest) := by
  have hshape : literal text ++ '\n' :: rest = '\'' :: (text ++ '\'' :: '\n' :: rest) := by
    simp [literal]
  rw [hshape, text?_single, literal?_append h]
  intro more hquotes
  cases text with
  | nil => cases hquotes
  | cons c text => exact (h c List.mem_cons_self).2 (List.cons.inj hquotes).1

/-- A text of several lines starts on a line of its own, and no other text starts with a line
    break. -/
theorem skipLineBreak_fenced {text body : List Char}
    (h : text.contains '\n' = false → ∃ c rest, body = c :: rest ∧ isPlain c = true) :
    skipLineBreak ((if text.contains '\n' then ['\n'] else []) ++ body) = body := by
  cases hbreak : text.contains '\n' with
  | true => rfl
  | false =>
    obtain ⟨c, rest, rfl, hplain⟩ := h hbreak
    rw [if_neg (by decide), List.nil_append, skipLineBreak, lineBreak?_of_plain hplain]
    rfl

theorem text?_fenced_escaped (text rest : List Char) :
    text? (fenced '"' text (escaped true 0 text) ++ '\n' :: rest) = some (text, '\n' :: rest) := by
  have hshape : fenced '"' text (escaped true 0 text) ++ '\n' :: rest = '"' :: '"' :: '"' ::
      ((if text.contains '\n' then ['\n'] else []) ++
        (escaped true 0 text ++ '"' :: '"' :: '"' :: '\n' :: rest)) := by
    simp [fenced, List.replicate]
  have hskip : skipLineBreak ((if text.contains '\n' then ['\n'] else []) ++
      (escaped true 0 text ++ '"' :: '"' :: '"' :: '\n' :: rest)) =
        escaped true 0 text ++ '"' :: '"' :: '"' :: '\n' :: rest := by
    refine skipLineBreak_fenced fun hbreak => ?_
    cases text with
    | nil => exact ⟨'"', _, rfl, by decide⟩
    | cons c text =>
      by_cases hc : c = '"'
      · subst hc
        exact ⟨'"', _, by rw [escaped]; rfl, by decide⟩
      · rw [escaped_cons hc]
        rcases escapedChar_cases true c with ⟨hwritten, -, hplain⟩ | ⟨d, e, hwritten, -⟩
        · refine ⟨c, _, by rw [hwritten]; rfl, hplain.resolve_right fun h => ?_⟩
          simp [h.1] at hbreak
        · exact ⟨'\\', _, by rw [hwritten]; rfl, by decide⟩
  have hle := length_le_escaped true 0 text
  have hread (fuel : Nat) (hfuel : text.length < fuel) :=
    lines?_escaped (by decide : '\n' ≠ '"') rest text fuel hfuel
  rw [hshape, text?, hskip, hread]
  simp only [List.length_append]
  omega

theorem text?_fenced_literal {text : List Char} (hplain : ∀ c ∈ text, isControl c = false)
    (hrun : longestRun '\'' text ≤ 2) (rest : List Char) :
    text? (fenced '\'' text text ++ '\n' :: rest) = some (text, '\n' :: rest) := by
  have hshape : fenced '\'' text text ++ '\n' :: rest = '\'' :: '\'' :: '\'' ::
      ((if text.contains '\n' then ['\n'] else []) ++
        (text ++ '\'' :: '\'' :: '\'' :: '\n' :: rest)) := by
    simp [fenced, List.replicate]
  have hskip : skipLineBreak ((if text.contains '\n' then ['\n'] else []) ++
      (text ++ '\'' :: '\'' :: '\'' :: '\n' :: rest)) =
        text ++ '\'' :: '\'' :: '\'' :: '\n' :: rest := by
    refine skipLineBreak_fenced fun hbreak => ?_
    cases text with
    | nil => exact ⟨'\'', _, rfl, by decide⟩
    | cons c text =>
      refine ⟨c, _, rfl, isPlain_of_not_control (hplain c List.mem_cons_self) fun hc => ?_⟩
      simp [hc] at hbreak
  have hread (fuel : Nat) (hfuel : text.length < fuel) :=
    lines?_literal (by decide : '\n' ≠ '\'') rest text fuel hfuel hplain hrun
  rw [hshape, text?, hskip, hread]
  simp only [List.length_append]
  omega

/-- Whatever style a text is written in, it is read back. -/
theorem text?_quoted (text rest : List Char) :
    text? (quoted text ++ '\n' :: rest) = some (text, '\n' :: rest) := by
  have hno {p : Char → Bool} (h : text.any p = false) : ∀ c ∈ text, p c = false := by
    simpa using h
  unfold quoted
  dsimp only
  split
  · exact text?_basic text rest
  split
  · rename_i h
    simp only [Bool.and_eq_true, Bool.not_eq_true'] at h
    obtain ⟨⟨hcontrol, hbreak⟩, hquote⟩ := h
    refine text?_literal (fun c hc => ⟨isPlain_of_not_control (hno hcontrol c hc) ?_, ?_⟩) rest
    · rintro rfl
      simp [hc] at hbreak
    · rintro rfl
      simp [hc] at hquote
  split
  · exact text?_fenced_escaped text rest
  split
  · rename_i h
    simp only [Bool.and_eq_true, Bool.not_eq_true', decide_eq_true_eq] at h
    exact text?_fenced_literal (hno h.1) h.2 rest
  split
  · exact text?_fenced_escaped text rest
  · exact text?_basic text rest

end ShardMesh.Toml
