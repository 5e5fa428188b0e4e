import ShardMesh.Proofs.Attempts
import ShardMesh.Proofs.Wire.Writer

/-!
# Writers touch only what they report

A scratch buffer is shared, and what is sent of it is what a writer reports as written. Writing goes on
after a refusal, a value may be refused between its length and its body, and a writer may start past the
end of its buffer. Whatever is put, each put leaves some bytes at the position (`Writer.left`), next to
those that the puts before it left, and changes nothing else (`Writer.inTurn_put`).
-/

namespace ShardMesh.Wire.Writer

/-! ## Room -/

/-- Bytes that can be put at the position of a writer. No bytes at all can also be put past the end. -/
def Room (w : Writer) (bytes : Bytes) : Prop :=
  bytes = [] ∨ w.position + bytes.length ≤ w.buffer.length

section Room

variable {w : Writer} {bytes more : Bytes}

theorem room_nil (w : Writer) : w.Room [] := .inl rfl

theorem Room.length_extend (h : w.Room bytes) :
    (w.extend bytes).buffer.length = w.buffer.length := by
  rcases h with rfl | h
  · rw [extend_nil]
  · exact Writer.length_extend h

theorem Room.extend_extend (h : w.Room bytes) :
    (w.extend bytes).extend more = w.extend (bytes ++ more) := by
  rcases h with rfl | h
  · rw [extend_nil, List.nil_append]
  · exact Writer.extend_extend (by omega) bytes more

/-- What has room behind other bytes has room together with them. -/
theorem Room.append (h : w.Room bytes) (hmore : (w.extend bytes).Room more) :
    w.Room (bytes ++ more) := by
  rcases hmore with rfl | hmore
  · rwa [List.append_nil]
  · refine .inr ?_
    rw [h.length_extend] at hmore
    rw [List.length_append, ← Nat.add_assoc]
    exact hmore

theorem Room.position_le (h : w.Room bytes) :
    (w.extend bytes).position ≤ max w.position w.buffer.length := by
  show w.position + bytes.length ≤ _
  rcases h with rfl | h
  · exact Nat.le_max_left _ _
  · omega

/-- Bytes that are put change nothing around them. -/
theorem Room.getElem?_extend (h : w.Room bytes) {i : Nat}
    (hi : i < w.position ∨ w.position + bytes.length ≤ i) :
    (w.extend bytes).buffer[i]? = w.buffer[i]? := by
  rcases h with rfl | h
  · rw [extend_nil]
  · exact (Bytes.getElem?_overwrite h i).trans (if_neg (by omega))

theorem Room.slice_extend (h : w.Room bytes) :
    (w.extend bytes).buffer.slice w.position bytes.length = bytes := by
  rcases h with rfl | h
  · exact List.take_zero
  · exact (Bytes.standAt_overwrite h).slice

end Room

/-! ## Single values -/

/-- A value whose length can be written, if it has one in front, and that has room as a whole. -/
def Fits (w : Writer) (v : Value) : Prop :=
  v.Writable ∧ w.position + v.encoding.length ≤ w.buffer.length

/-- A value whose length can be written and has room in front of the body, but not with the body. -/
def FitsLengthOnly (w : Writer) (v : Value) : Prop :=
  v.isPrefixed = true ∧ v.body.length ≤ maxPrefixedLength ∧
    w.position + 2 ≤ w.buffer.length ∧ w.buffer.length < w.position + 2 + v.body.length

instance (w : Writer) (v : Value) : Decidable (w.Fits v) :=
  inferInstanceAs (Decidable ((v.isPrefixed = true → v.body.length ≤ maxPrefixedLength) ∧ _))

instance (w : Writer) (v : Value) : Decidable (w.FitsLengthOnly v) :=
  inferInstanceAs (Decidable (_ ∧ _))

section Single

variable {w : Writer} {v : Value}

theorem put_of_fits (h : w.Fits v) : w.put v = (.ok (), w.extend v.encoding) := put_of_room h.1 h.2

theorem FitsLengthOnly.room (h : w.FitsLengthOnly v) : w.Room (Bytes.ofNatBE 2 v.body.length) := by
  obtain ⟨-, -, hroom, -⟩ := h
  exact .inr (by rwa [Bytes.length_ofNatBE])

/-- The length is put, and then the body is refused. -/
theorem put_of_fitsLengthOnly (h : w.FitsLengthOnly v) :
    w.put v = (.error (.bufferOverflow (w.position + 2) v.body.length w.buffer.length),
      w.extend (Bytes.ofNatBE 2 v.body.length)) := by
  have hlength := h.room.length_extend
  obtain ⟨hprefixed, hshort, hroom, hless⟩ := h
  have hposition : (w.extend (Bytes.ofNatBE 2 v.body.length)).position = w.position + 2 := by
    show w.position + (Bytes.ofNatBE 2 v.body.length).length = _
    rw [Bytes.length_ofNatBE]
  rw [put, if_pos hprefixed, putPrefixed, if_pos hshort,
    putRaw_of_room (by rwa [Bytes.length_ofNatBE])]
  dsimp only
  rw [putRaw_of_no_room (by rwa [hlength, hposition]), hlength, hposition]

/-- A value of which no part fits leaves the writer as it is. -/
theorem put_of_not_fits (h : ¬ w.Fits v) (hlength : ¬ w.FitsLengthOnly v) :
    ∃ e, w.put v = (.error e, w) := by
  by_cases hv : v.Writable
  · have hless : w.buffer.length < w.position + v.encoding.length :=
      Nat.not_le.mp fun hroom => h ⟨hv, hroom⟩
    unfold put
    cases hprefixed : v.isPrefixed with
    | false =>
      rw [Value.encoding_of_bare hprefixed] at hless
      rw [if_neg Bool.false_ne_true, putRaw_of_no_room hless]
      exact ⟨_, rfl⟩
    | true =>
      rw [Value.encoding_of_prefixed hprefixed, List.length_append, Bytes.length_ofNatBE] at hless
      have hhead : w.buffer.length < w.position + (Bytes.ofNatBE 2 v.body.length).length := by
        rw [Bytes.length_ofNatBE]
        exact Nat.not_le.mp fun hroom => hlength ⟨hprefixed, hv hprefixed, hroom, by omega⟩
      rw [if_pos rfl, putPrefixed, if_pos (hv hprefixed), putRaw_of_no_room hhead]
      exact ⟨_, rfl⟩
  · exact ⟨_, put_of_oversized hv⟩

end Single

/-! ## What puts leave behind -/

/-- What a put leaves at the position: the written form of the value if it fits, the length alone if
    that is all that fits, and nothing otherwise. -/
def left (w : Writer) (v : Value) : Bytes :=
  if w.Fits v then v.encoding
  else if w.FitsLengthOnly v then Bytes.ofNatBE 2 v.body.length
  else []

theorem room_left (w : Writer) (v : Value) : w.Room (w.left v) := by
  unfold left
  split
  · rename_i h
    exact .inr h.2
  · split
    · rename_i h
      exact h.room
    · exact room_nil w

theorem put_snd (w : Writer) (v : Value) : (w.put v).2 = w.extend (w.left v) := by
  unfold left
  split
  · rename_i h
    rw [put_of_fits h]
  · rename_i h
    split
    · rename_i hlength
      rw [put_of_fitsLengthOnly hlength]
    · rename_i hlength
      obtain ⟨e, hput⟩ := put_of_not_fits h hlength
      rw [hput, extend_nil]

/-- What is left behind by each of some puts, one after the other. -/
def leftInTurn (w : Writer) : List Value → List Bytes
  | [] => []
  | v :: values => w.left v :: (w.put v).2.leftInTurn values

theorem room_leftInTurn (w : Writer) (values : List Value) :
    w.Room (w.leftInTurn values).flatten := by
  induction values generalizing w with
  | nil => exact room_nil w
  | cons v values ih =>
    rw [leftInTurn, List.flatten_cons, put_snd]
    exact (w.room_left v).append (ih _)

/-- Puts leave behind what each of them leaves, without gaps, and nothing else. -/
theorem inTurn_put (w : Writer) (values : List Value) :
    (inTurn put w values).2 = w.extend (w.leftInTurn values).flatten := by
  induction values generalizing w with
  | nil => exact (extend_nil w).symm
  | cons v values ih =>
    rw [inTurn_cons, ih, leftInTurn, List.flatten_cons, put_snd, (w.room_left v).extend_extend]

/-- Whatever values are put into a buffer, from any offset on, and whichever are refused: nothing but the
    bytes from the offset up to the position has changed. The position has not gone back, and past the
    end it stays where it started. What is reported as written is what each put left there, all of it
    and in order, and later puts do not change it. A put succeeds exactly if the value fits, and leaves
    its written form. One that fails leaves the writer as it is; only if the length of the value fits
    and the body does not, it leaves the two bytes of the length. -/
theorem touches_only_written (buffer : Bytes) (offset : Nat) (values : List Value) :
    let start := atOffset buffer offset
    let w := (inTurn put start values).2
    let laid := (start.leftInTurn values).flatten
    (w.buffer.length = buffer.length ∧
      ∀ i, i < offset ∨ w.position ≤ i → w.buffer[i]? = buffer[i]?) ∧
    (offset ≤ w.position ∧ w.position ≤ max offset buffer.length) ∧
    (w.written = laid.length ∧ w.buffer.slice offset w.written = laid) ∧
    (∀ more, let later := (inTurn put w more).2
      w.position ≤ later.position ∧ ∀ i < w.position, later.buffer[i]? = w.buffer[i]?) ∧
    ∀ v, let (answer, next) := w.put v
      (answer = .ok () ↔ w.Fits v) ∧ (answer = .ok () → next = w.extend v.encoding) ∧
      (answer ≠ .ok () →
        w.FitsLengthOnly v ∧ next = w.extend (Bytes.ofNatBE 2 v.body.length) ∨
          ¬ w.FitsLengthOnly v ∧ next = w) := by
  intro start w laid
  have hroom : start.Room laid := start.room_leftInTurn values
  have hw : w = start.extend laid := start.inTurn_put values
  have hwritten : w.written = laid.length := by
    rw [hw]
    exact written_extend buffer offset laid
  refine ⟨⟨?_, fun i hi => ?_⟩, ⟨?_, ?_⟩, ⟨hwritten, ?_⟩, fun more => ⟨?_, fun i hi => ?_⟩, fun v => ?_⟩
  · rw [hw]
    exact hroom.length_extend
  · rw [hw] at hi ⊢
    exact hroom.getElem?_extend hi
  · rw [hw]
    exact Nat.le_add_right _ _
  · rw [hw]
    exact hroom.position_le
  · rw [hwritten, hw]
    exact hroom.slice_extend
  · rw [inTurn_put]
    exact Nat.le_add_right _ _
  · rw [inTurn_put]
    exact (w.room_leftInTurn more).getElem?_extend (.inl hi)
  · by_cases hfits : w.Fits v
    · rw [put_of_fits hfits]
      exact ⟨iff_of_true rfl hfits, fun _ => rfl, fun h => absurd rfl h⟩
    · by_cases hlength : w.FitsLengthOnly v
      · rw [put_of_fitsLengthOnly hlength]
        exact ⟨iff_of_false (fun h => (nomatch h)) hfits, fun h => (nomatch h),
          fun _ => .inl ⟨hlength, rfl⟩⟩
      · obtain ⟨e, hput⟩ := put_of_not_fits hfits hlength
        rw [hput]
        exact ⟨iff_of_false (fun h => (nomatch h)) hfits, fun h => (nomatch h),
          fun _ => .inr ⟨hlength, rfl⟩⟩

/-- The length of a text is put and its body is not, and a shorter value is put behind it. -/
example : (inTurn put (atOffset [9, 9, 9, 9, 9, 9] 1) [.bytes [1, 2, 3, 4], .u64 0, .u16 513]).2 =
    ⟨[9, 0, 4, 2, 1, 9], 1, 5⟩ := by rfl

end ShardMesh.Wire.Writer
