import ShardMesh.Bytes

/-!
# Bytes in a buffer

Bytes that are put over others stand where they were put, next to each other if they were put next
to each other, and everything around them is as before.
-/

namespace ShardMesh

/-- Some bytes stand in a buffer from a position on. -/
structure Bytes.StandAt (bytes buffer : Bytes) (position : Nat) : Prop where
  bound : position + bytes.length ≤ buffer.length
  slice : buffer.slice position bytes.length = bytes

namespace Bytes

/-! ## Cutting out -/

theorem length_slice {buffer : Bytes} {position count : Nat}
    (h : position + count ≤ buffer.length) : (buffer.slice position count).length = count := by
  rw [slice, List.length_take, List.length_drop]
  omega

theorem slice_add (buffer : Bytes) (position count more : Nat) :
    buffer.slice position (count + more) =
      buffer.slice position count ++ buffer.slice (position + count) more := by
  rw [slice, slice, slice, List.take_add, List.drop_drop]

/-- What is cut out of two buffers is the same if they agree there. -/
theorem slice_congr {buffer other : Bytes} {position count : Nat}
    (h : ∀ i, position ≤ i → i < position + count → other[i]? = buffer[i]?) :
    other.slice position count = buffer.slice position count := by
  refine List.ext_getElem? fun i => ?_
  rw [slice, slice, List.getElem?_take, List.getElem?_take]
  split
  · rw [List.getElem?_drop, List.getElem?_drop, h (position + i) (by omega) (by omega)]
  · rfl

/-- What is cut out of a buffer stands there. -/
theorem standAt_slice {buffer : Bytes} {position count : Nat}
    (h : position + count ≤ buffer.length) : (buffer.slice position count).StandAt buffer position := by
  have hlength := length_slice h
  exact ⟨by rw [hlength]; exact h, by rw [hlength]⟩

theorem standAt_append {bytes more buffer : Bytes} {position : Nat} :
    (bytes ++ more).StandAt buffer position ↔
      bytes.StandAt buffer position ∧ more.StandAt buffer (position + bytes.length) := by
  constructor
  · rintro ⟨hbound, hslice⟩
    rw [List.length_append] at hbound hslice
    rw [slice_add] at hslice
    have hfirst : (buffer.slice position bytes.length).length = bytes.length :=
      length_slice (by omega)
    obtain ⟨hbytes, hmore⟩ := List.append_inj hslice hfirst
    exact ⟨⟨by omega, hbytes⟩, ⟨by omega, hmore⟩⟩
  · rintro ⟨⟨-, hbytes⟩, ⟨hbound, hmore⟩⟩
    refine ⟨?_, ?_⟩
    · rw [List.length_append]
      omega
    · rw [List.length_append, slice_add, hbytes, hmore]

/-! ## Putting over -/

@[simp] theorem overwrite_nil (buffer : Bytes) (position : Nat) :
    buffer.overwrite position [] = buffer := by
  simp [overwrite]

theorem overwrite_overwrite {buffer patch more : Bytes} {position : Nat}
    (h : position ≤ buffer.length) :
    (buffer.overwrite position patch).overwrite (position + patch.length) more =
      buffer.overwrite position (patch ++ more) := by
  have htake : (buffer.take position ++ patch).length = position + patch.length := by
    rw [List.length_append, List.length_take, Nat.min_eq_left h]
  have hdrop (rest : Bytes) : (buffer.take position ++ patch ++ rest).drop
      (position + patch.length + more.length) = rest.drop more.length := by
    rw [← List.drop_drop, List.drop_left' htake]
  rw [overwrite, overwrite, overwrite, List.take_left' htake, hdrop, List.drop_drop,
    List.append_assoc (buffer.take position), List.length_append, Nat.add_assoc]

theorem standAt_overwrite {buffer patch : Bytes} {position : Nat}
    (h : position + patch.length ≤ buffer.length) :
    patch.StandAt (buffer.overwrite position patch) position := by
  have htake : (buffer.take position).length = position := by
    rw [List.length_take]
    omega
  refine ⟨?_, ?_⟩
  · rw [length_overwrite h]
    exact h
  · rw [slice, overwrite, List.append_assoc, List.drop_left' htake, List.take_left]

/-- A place of a buffer has the byte that was put there, or the one that it had before. -/
theorem getElem?_overwrite {buffer patch : Bytes} {position : Nat}
    (h : position + patch.length ≤ buffer.length) (i : Nat) :
    (buffer.overwrite position patch)[i]? =
      if position ≤ i ∧ i < position + patch.length then patch[i - position]? else buffer[i]? := by
  have htake : (buffer.take position).length = position := by
    rw [List.length_take]
    omega
  rw [overwrite, List.append_assoc]
  by_cases hbefore : i < position
  · rw [List.getElem?_append_left (by omega), List.getElem?_take_of_lt hbefore, if_neg (by omega)]
  · rw [List.getElem?_append_right (by omega), htake]
    by_cases hinside : i < position + patch.length
    · rw [List.getElem?_append_left (by omega), if_pos (by omega)]
    · rw [List.getElem?_append_right (by omega), List.getElem?_drop, if_neg (by omega)]
      congr 1
      omega

end Bytes

end ShardMesh
