import ShardMesh.Compression.Segment

/-!
# The size of what is described

A segment appends its literals and its copy, whatever the copy holds.
-/

namespace ShardMesh.Compression

@[simp] theorem size_copyBack (out : Array UInt8) (offset length : Nat) :
    (copyBack out offset length).size = out.size + length := by
  induction length generalizing out with
  | zero => rfl
  | succ length ih => rw [copyBack, ih, Array.size_push]; omega

@[simp] theorem size_appendList (out : Array UInt8) (bytes : Bytes) :
    (out.appendList bytes).size = out.size + bytes.length := by
  rw [← Array.length_toList, Array.appendList_eq_append, Array.toList_appendList,
    List.length_append, Array.length_toList]

theorem appendList_append (out : Array UInt8) (a b : Bytes) :
    (out.appendList a).appendList b = out.appendList (a ++ b) := by
  apply Array.ext'
  simp only [Array.appendList_eq_append, Array.toList_appendList, List.append_assoc]

@[simp] theorem Segment.size_extend (s : Segment) (out : Array UInt8) :
    (s.extend out).size = out.size + s.literals.length + s.length := by
  rw [extend, size_copyBack, size_appendList]

theorem size_foldl_extend (segments : List Segment) (out : Array UInt8) :
    (segments.foldl (fun out s => s.extend out) out).size =
      segments.foldl (fun n s => n + s.literals.length + s.length) out.size := by
  induction segments generalizing out with
  | nil => rfl
  | cons s segments ih => rw [List.foldl_cons, List.foldl_cons, ih, Segment.size_extend]

/-- The size of a description is the length of the data that it stands for. -/
theorem Segmentation.length_expand (d : Segmentation) : d.expand.length = d.size := by
  simp [expand, size, size_foldl_extend]

end ShardMesh.Compression
