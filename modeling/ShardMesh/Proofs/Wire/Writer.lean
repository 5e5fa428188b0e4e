import ShardMesh.Proofs.Marshal
import ShardMesh.Proofs.Wire.Buffer
import ShardMesh.Proofs.Wire.Encoding

/-!
# What a writer puts into its buffer

Whatever is asked of a writer, it puts some bytes at its position and goes on behind them. Which
bytes these are, and what it answers, follows from the position and the size of the buffer, not from
what the buffer holds (`Writer.Script.blind`). A row of values is put as a whole if all lengths fit
and there is room; otherwise the first value that is too long or has no room is refused
(`Writer.putAll_cases`).
-/

namespace ShardMesh.Wire.Writer

/-- The writer after some bytes were put at its position. -/
def extend (w : Writer) (bytes : Bytes) : Writer :=
  { w with buffer := w.buffer.overwrite w.position bytes, position := w.position + bytes.length }

@[simp] theorem extend_nil (w : Writer) : w.extend [] = w := by
  simp [extend]

theorem extend_extend {w : Writer} (h : w.position ≤ w.buffer.length) (bytes more : Bytes) :
    (w.extend bytes).extend more = w.extend (bytes ++ more) := by
  rw [extend, extend, extend, Bytes.overwrite_overwrite h, List.length_append, Nat.add_assoc]

theorem length_extend {w : Writer} {bytes : Bytes}
    (h : w.position + bytes.length ≤ w.buffer.length) :
    (w.extend bytes).buffer.length = w.buffer.length := Bytes.length_overwrite h

@[simp] theorem written_extend (buffer : Bytes) (offset : Nat) (bytes : Bytes) :
    ((atOffset buffer offset).extend bytes).written = bytes.length :=
  Nat.add_sub_cancel_left offset _

/-! ## Single values -/

theorem putRaw_of_room {w : Writer} {bytes : Bytes}
    (h : w.position + bytes.length ≤ w.buffer.length) :
    w.putRaw bytes = (.ok (), w.extend bytes) := if_pos h

theorem putRaw_of_no_room {w : Writer} {bytes : Bytes}
    (h : w.buffer.length < w.position + bytes.length) :
    w.putRaw bytes = (.error (.bufferOverflow w.position bytes.length w.buffer.length), w) :=
  if_neg (Nat.not_le.mpr h)

/-- A value that is not too long is put as it is encoded, if there is room. -/
theorem put_of_room {w : Writer} {v : Value} (hv : v.Writable)
    (h : w.position + v.encoding.length ≤ w.buffer.length) :
    w.put v = (.ok (), w.extend v.encoding) := by
  unfold put
  by_cases hprefixed : v.isPrefixed = true
  · rw [Value.encoding_of_prefixed hprefixed] at h ⊢
    rw [List.length_append] at h
    have hhead : w.position + (Bytes.ofNatBE 2 v.body.length).length ≤ w.buffer.length := by omega
    have hbody : (w.extend (Bytes.ofNatBE 2 v.body.length)).position + v.body.length ≤
        (w.extend (Bytes.ofNatBE 2 v.body.length)).buffer.length := by
      rw [length_extend hhead]
      show w.position + _ + _ ≤ _
      omega
    rw [if_pos hprefixed, putPrefixed, if_pos (hv hprefixed), putRaw_of_room hhead]
    dsimp only
    rw [putRaw_of_room hbody, extend_extend (by omega)]
  · rw [Bool.not_eq_true] at hprefixed
    rw [Value.encoding_of_bare hprefixed] at h ⊢
    rw [hprefixed]
    exact putRaw_of_room h

/-- A value that is not too long is refused if there is no room, and the refusal names a part of it
    that ends behind the buffer. -/
theorem put_of_no_room {w : Writer} {v : Value} (hv : v.Writable)
    (h : w.buffer.length < w.position + v.encoding.length) :
    ∃ position needed, (w.put v).1 = .error (.bufferOverflow position needed w.buffer.length) ∧
      w.buffer.length < position + needed ∧ position + needed ≤ w.position + v.encoding.length := by
  unfold put
  by_cases hprefixed : v.isPrefixed = true
  · rw [Value.encoding_of_prefixed hprefixed, List.length_append] at h
    rw [if_pos hprefixed, putPrefixed, if_pos (hv hprefixed), Value.encoding_of_prefixed hprefixed,
      List.length_append]
    by_cases hhead : w.position + (Bytes.ofNatBE 2 v.body.length).length ≤ w.buffer.length
    · -- the length is put, and the body has no room behind it
      have hbody : (w.extend (Bytes.ofNatBE 2 v.body.length)).buffer.length <
          (w.extend (Bytes.ofNatBE 2 v.body.length)).position + v.body.length := by
        rw [length_extend hhead]
        show _ < w.position + _ + _
        omega
      rw [putRaw_of_room hhead]
      dsimp only
      rw [putRaw_of_no_room hbody, length_extend hhead]
      rw [length_extend hhead] at hbody
      refine ⟨_, _, rfl, hbody, ?_⟩
      rw [← Nat.add_assoc]
      exact Nat.le_refl _
    · rw [putRaw_of_no_room (Nat.not_le.mp hhead)]
      exact ⟨_, _, rfl, Nat.not_le.mp hhead, by omega⟩
  · rw [Bool.not_eq_true] at hprefixed
    rw [Value.encoding_of_bare hprefixed] at h ⊢
    rw [hprefixed]
    exact ⟨_, _, congrArg Prod.fst (putRaw_of_no_room h), h, Nat.le_refl _⟩

/-- A value whose length two bytes cannot say is refused, whether there is room or not. -/
theorem put_of_oversized {w : Writer} {v : Value} (hv : ¬ v.Writable) :
    w.put v = (.error (.oversizedPacket v.body.length), w) := by
  obtain ⟨hprefixed, hlong⟩ := Classical.not_imp.mp hv
  rw [put, if_pos hprefixed, putPrefixed, if_neg hlong]

/-! ## Rows of values -/

/-- A row of values is put if none is too long and there is room for all. To put nothing a writer
    need not be inside its buffer. -/
theorem putAll_of_room {w : Writer} {values : List Value} (hvalues : ∀ v ∈ values, v.Writable)
    (h : values ≠ [] → w.position + (encodingOf values).length ≤ w.buffer.length) :
    w.putAll values = (.ok (), w.extend (encodingOf values)) := by
  induction values generalizing w with
  | nil => rw [putAll, encodingOf_nil, extend_nil]
  | cons v values ih =>
    obtain ⟨hv, hrest⟩ := List.forall_mem_cons.mp hvalues
    have hroom := h (List.cons_ne_nil v values)
    rw [encodingOf_cons, List.length_append] at hroom
    have hfirst : w.position + v.encoding.length ≤ w.buffer.length := by omega
    rw [putAll, put_of_room hv hfirst, encodingOf_cons, ← extend_extend (by omega)]
    refine ih hrest fun _ => ?_
    rw [length_extend hfirst]
    show w.position + _ + _ ≤ _
    omega

/-- Why a writer refuses a value that comes after others: it is too long, or it is not but ends behind
    the buffer. -/
inductive Refusal (w : Writer) (before : List Value) (v : Value) : ProtocolError → Prop
  | tooLong (h : ¬ v.Writable) : Refusal w before v (.oversizedPacket v.body.length)
  | noRoom (hv : v.Writable) (position needed : Nat) (hless : w.buffer.length < position + needed)
      (hpart : position + needed ≤ w.position + (encodingOf (before ++ [v])).length) :
      Refusal w before v (.bufferOverflow position needed w.buffer.length)

/-- A row of values is put, or one of its values is the first to be refused. -/
theorem putAll_cases (w : Writer) (values : List Value) :
    (∀ v ∈ values, v.Writable) ∧
        (values ≠ [] → w.position + (encodingOf values).length ≤ w.buffer.length) ∧
        w.putAll values = (.ok (), w.extend (encodingOf values)) ∨
      ∃ before v after e, values = before ++ v :: after ∧
        (w.putAll before).1 = .ok () ∧ w.Refusal before v e ∧ (w.putAll values).1 = .error e := by
  induction values generalizing w with
  | nil => exact .inl ⟨by simp, by simp, by simp [putAll]⟩
  | cons v values ih =>
    by_cases hv : v.Writable
    · by_cases hroom : w.position + v.encoding.length ≤ w.buffer.length
      · have hfirst := put_of_room hv hroom
        have hall (others : List Value) :
            w.putAll (v :: others) = (w.extend v.encoding).putAll others := by
          rw [putAll, hfirst]
        have hend (others : List Value) : (w.extend v.encoding).position + (encodingOf others).length =
            w.position + (encodingOf (v :: others)).length := by
          rw [encodingOf_cons, List.length_append, ← Nat.add_assoc]
          rfl
        rcases ih (w.extend v.encoding) with
          ⟨hrest, hmore, hput⟩ | ⟨before, u, after, e, rfl, hput, hrefusal, herror⟩
        · refine .inl ⟨List.forall_mem_cons.mpr ⟨hv, hrest⟩, fun _ => ?_, ?_⟩
          · by_cases hnil : values = []
            · rw [hnil, encodingOf_cons, encodingOf_nil, List.append_nil]
              exact hroom
            · rw [← hend, ← length_extend hroom]
              exact hmore hnil
          · rw [hall, hput, extend_extend (by omega), encodingOf_cons]
        · refine .inr ⟨v :: before, u, after, e, rfl, ?_, ?_, ?_⟩
          · rw [hall]
            exact hput
          · cases hrefusal with
            | tooLong h => exact .tooLong h
            | noRoom hu position needed hless hpart =>
              rw [length_extend hroom] at hless ⊢
              rw [hend] at hpart
              exact .noRoom hu position needed hless hpart
          · rw [hall]
            exact herror
      · obtain ⟨position, needed, herror, hless, hpart⟩ := put_of_no_room hv (Nat.not_le.mp hroom)
        refine .inr ⟨[], v, values, _, rfl, rfl, .noRoom hv position needed hless ?_, ?_⟩
        · simpa using hpart
        · rw [putAll]
          rcases hput : w.put v with ⟨_ | _, next⟩
          · rw [hput] at herror
            exact herror
          · rw [hput] at herror
            cases herror
    · refine .inr ⟨[], v, values, _, rfl, rfl, .tooLong hv, ?_⟩
      rw [putAll, put_of_oversized hv]

/-- A row of values is refused exactly if one of them is too long or there is no room for all. -/
theorem putAll_refused_iff (w : Writer) {values : List Value} (hvalues : values ≠ []) :
    (w.putAll values).1 ≠ .ok () ↔
      (∃ v ∈ values, ¬ v.Writable) ∨ w.buffer.length < w.position + (encodingOf values).length := by
  constructor
  · intro hrefused
    rcases w.putAll_cases values with ⟨-, -, hput⟩ | ⟨before, v, after, e, rfl, -, hrefusal, -⟩
    · exact absurd (congrArg Prod.fst hput) hrefused
    · cases hrefusal with
      | tooLong h => exact .inl ⟨v, by simp, h⟩
      | noRoom _ position needed hless hpart =>
        refine .inr (Nat.lt_of_lt_of_le hless (Nat.le_trans hpart ?_))
        simp only [encodingOf_append, encodingOf_cons, encodingOf_nil, List.append_nil,
          List.length_append]
        omega
  · intro hbad hput
    rcases w.putAll_cases values with ⟨hall, hroom, -⟩ | ⟨before, v, after, e, -, -, -, herror⟩
    · rcases hbad with ⟨v, hv, hlong⟩ | hless
      · exact hlong (hall v hv)
      · exact absurd (hroom hvalues) (Nat.not_le.mpr hless)
    · rw [herror] at hput
      cases hput

/-! ## Writing is blind -/

/-- What is asked of a writer is answered without looking into the buffer: the position and the size
    of the buffer settle the answer, and which bytes are put at the position. -/
def Blind (ask : Writer → Except ProtocolError Unit × Writer) : Prop :=
  ∀ capacity position, ∃ answer patch, (patch = [] ∨ position + patch.length ≤ capacity) ∧
    ∀ w : Writer, w.buffer.length = capacity → w.position = position →
      ask w = (answer, w.extend patch)

theorem blind_putRaw (bytes : Bytes) : Blind (·.putRaw bytes) := by
  intro capacity position
  by_cases h : position + bytes.length ≤ capacity
  · refine ⟨.ok (), bytes, .inr h, ?_⟩
    rintro w rfl rfl
    exact putRaw_of_room h
  · refine ⟨.error (.bufferOverflow position bytes.length capacity), [], .inl rfl, ?_⟩
    rintro w rfl rfl
    rw [extend_nil]
    exact putRaw_of_no_room (Nat.not_le.mp h)

theorem blind_answer (answer : Except ProtocolError Unit) : Blind fun w => (answer, w) :=
  fun _ _ => ⟨answer, [], .inl rfl, fun w _ _ => by rw [extend_nil]⟩

/-- Asking for one thing, and then for another that depends on the answer and on where the writer
    stands. -/
theorem Blind.bind {first : Writer → Except ProtocolError Unit × Writer}
    {second : Except ProtocolError Unit → Nat → Writer → Except ProtocolError Unit × Writer}
    (hfirst : Blind first) (hsecond : ∀ answer position, Blind (second answer position)) :
    Blind fun w => second (first w).1 (first w).2.position (first w).2 := by
  intro capacity position
  obtain ⟨answer, patch, hpatch, hput⟩ := hfirst capacity position
  obtain ⟨answer', patch', hpatch', hput'⟩ :=
    hsecond answer (position + patch.length) capacity (position + patch.length)
  rcases hpatch with rfl | hpatch
  · refine ⟨answer', patch', hpatch', fun w hcapacity hposition => ?_⟩
    subst hposition
    dsimp only
    rw [hput w hcapacity rfl, extend_nil]
    exact hput' w hcapacity rfl
  · refine ⟨answer', patch ++ patch', .inr ?_, fun w hcapacity hposition => ?_⟩
    · rw [List.length_append, ← Nat.add_assoc]
      rcases hpatch' with rfl | hpatch'
      · exact hpatch
      · exact hpatch'
    · subst hcapacity hposition
      dsimp only
      rw [hput w rfl rfl, ← extend_extend (by omega)]
      exact hput' (w.extend patch) (length_extend hpatch) rfl

/-- Asks for one thing, and for another one if the first was done. -/
def andThen (first second : Writer → Except ProtocolError Unit × Writer) (w : Writer) :
    Except ProtocolError Unit × Writer :=
  match first w with
  | (.ok (), w) => second w
  | refused => refused

/-- What is asked after an answer, if only what was done is followed by more. -/
def ifDone (second : Writer → Except ProtocolError Unit × Writer) :
    Except ProtocolError Unit → Writer → Except ProtocolError Unit × Writer
  | .ok () => second
  | .error e => fun w => (.error e, w)

theorem andThen_eq (first second : Writer → Except ProtocolError Unit × Writer) :
    andThen first second = fun w => ifDone second (first w).1 (first w).2 := by
  funext w
  unfold andThen
  rcases first w with ⟨_ | _, w'⟩ <;> rfl

theorem blind_putPrefixed (bytes : Bytes) : Blind (·.putPrefixed bytes) := by
  by_cases h : bytes.length ≤ maxPrefixedLength
  · have heq : (fun w : Writer => w.putPrefixed bytes) =
        andThen (·.putRaw (Bytes.ofNatBE 2 bytes.length)) (·.putRaw bytes) :=
      funext fun w => if_pos h
    rw [heq, andThen_eq]
    refine @Blind.bind _ (fun answer _ => ifDone (·.putRaw bytes) answer) (blind_putRaw _) ?_
    rintro (e | done) -
    · exact blind_answer (.error e)
    · exact blind_putRaw bytes
  · have heq : (fun w : Writer => w.putPrefixed bytes) =
        fun w => (.error (.oversizedPacket bytes.length), w) := funext fun w => if_neg h
    rw [heq]
    exact blind_answer _

theorem blind_put (v : Value) : Blind (·.put v) := by
  cases hprefixed : v.isPrefixed with
  | true =>
    have heq : (fun w : Writer => w.put v) = (·.putPrefixed v.body) :=
      funext fun w => by rw [put, if_pos hprefixed]
    rw [heq]
    exact blind_putPrefixed v.body
  | false =>
    have heq : (fun w : Writer => w.put v) = (·.putRaw v.body) :=
      funext fun w => by rw [put, hprefixed, if_neg Bool.false_ne_true]
    rw [heq]
    exact blind_putRaw v.body

/-- Everything that can be done with a writer: to put values one after the other, where what comes next
    may depend on the answers and on where the writer stands, and to answer something in the end. -/
inductive Script : (Writer → Except ProtocolError Unit × Writer) → Prop
  | answer (answer : Except ProtocolError Unit) : Script fun w => (answer, w)
  | put (v : Value) : Script (·.put v)
  | bind {first : Writer → Except ProtocolError Unit × Writer}
      {second : Except ProtocolError Unit → Nat → Writer → Except ProtocolError Unit × Writer}
      (hfirst : Script first) (hsecond : ∀ answer position, Script (second answer position)) :
      Script fun w => second (first w).1 (first w).2.position (first w).2

/-- Whatever is done with a writer is done without looking into the buffer. -/
theorem Script.blind {ask : Writer → Except ProtocolError Unit × Writer} (h : Script ask) :
    Blind ask := by
  induction h with
  | answer answer => exact blind_answer answer
  | put v => exact blind_put v
  | bind _ _ hfirst hsecond => exact hfirst.bind hsecond

theorem script_putAll (values : List Value) : Script (·.putAll values) := by
  induction values with
  | nil => exact .answer (.ok ())
  | cons v values ih =>
    have heq : (fun w : Writer => w.putAll (v :: values)) = andThen (·.put v) (·.putAll values) := rfl
    rw [heq, andThen_eq]
    refine @Script.bind _ (fun answer _ => ifDone (·.putAll values) answer) (.put v) ?_
    rintro (e | done) -
    · exact .answer (.error e)
    · exact ih

end ShardMesh.Wire.Writer
