import ShardMesh.Packet.Basic
import ShardMesh.BufferPool

/-!
# Scratch buffers and the packets that write into them

A packet overwrites bytes of the buffer that it is given, it does not make the buffer longer or
shorter. So all buffers of a pool keep the length that the pool was made with, whatever packets are
marshaled and whether they succeed.
-/

namespace ShardMesh

/-! ## Writing -/

namespace Wire.Writer

@[simp] theorem length_putRaw (w : Writer) (bytes : Bytes) :
    (w.putRaw bytes).2.buffer.length = w.buffer.length := by
  unfold putRaw
  split
  · exact Bytes.length_overwrite ‹_›
  · rfl

@[simp] theorem length_putPrefixed (w : Writer) (bytes : Bytes) :
    (w.putPrefixed bytes).2.buffer.length = w.buffer.length := by
  unfold putPrefixed
  split
  · have hlength := length_putRaw w (Bytes.ofNatBE 2 bytes.length)
    split
    · rename_i next h
      rw [h] at hlength
      rw [length_putRaw, hlength]
    · exact hlength
  · rfl

@[simp] theorem length_put (w : Writer) (v : Value) :
    (w.put v).2.buffer.length = w.buffer.length := by
  unfold put
  split <;> simp

/-- A row of values leaves the length of the buffer alone, also where one of them is refused. -/
@[simp] theorem length_putAll (w : Writer) (values : List Value) :
    (w.putAll values).2.buffer.length = w.buffer.length := by
  induction values generalizing w with
  | nil => rfl
  | cons v values ih =>
    have hlength := length_put w v
    rw [putAll]
    split
    · rename_i next h
      rw [h] at hlength
      rw [ih, hlength]
    · exact hlength

end Wire.Writer

/-! ## Packets that keep to their buffer -/

/-- A family whose packets leave the length of the buffer alone that they write themselves into. -/
class LawfulPacket (P : Type) [Packet P] : Prop where
  /-- The buffer afterwards is as long as before. -/
  length_marshal (p : P) (buffer : Bytes) (offset : Nat) :
    (Packet.marshal p buffer offset).2.length = buffer.length

instance : LawfulPacket Ping where
  length_marshal p buffer offset := by
    show (Ping.marshal p buffer offset).2.length = buffer.length
    have hlength := Wire.Writer.length_put (.atOffset buffer offset) (.u64 p.sentAtMicros)
    unfold Ping.marshal
    split <;> (rename_i h; rw [h] at hlength; exact hlength)

instance : LawfulPacket FieldPacket where
  length_marshal p buffer offset := by
    show (FieldPacket.marshal p buffer offset).2.length = buffer.length
    have hlength := Wire.Writer.length_putAll (.atOffset buffer offset) p.fields
    unfold FieldPacket.marshal
    split <;> (rename_i h; rw [h] at hlength; exact hlength)

/-! ## Pools -/

namespace BufferPool

/-- All buffers that wait in a pool have the length of the pool. -/
def Uniform (pool : BufferPool) : Prop :=
  ∀ buffer ∈ pool.idle, buffer.length = pool.bufferSize

theorem uniform_ofSize (count size : Nat) : (ofSize count size).Uniform := by
  intro buffer hbuffer
  rw [List.eq_of_mem_replicate hbuffer]
  exact List.length_replicate

/-- A pool hands out a buffer of its length, and the others stay. -/
theorem Uniform.acquire {pool : BufferPool} (h : pool.Uniform) :
    pool.acquire.1.length = pool.bufferSize ∧ pool.acquire.2.Uniform ∧
      pool.acquire.2.bufferSize = pool.bufferSize := by
  unfold BufferPool.acquire
  split
  · exact ⟨List.length_replicate, h, rfl⟩
  · rename_i buffer idle hidle
    refine ⟨h buffer (by simp [hidle]), fun other hother => h other ?_, rfl⟩
    rw [hidle]
    exact List.mem_cons_of_mem buffer hother

/-- Only a buffer of its length gets into a pool. -/
theorem Uniform.release {pool : BufferPool} (h : pool.Uniform) (buffer : Bytes) :
    (pool.release buffer).Uniform ∧ (pool.release buffer).bufferSize = pool.bufferSize := by
  unfold BufferPool.release
  split
  · rename_i haccept
    refine ⟨fun other hother => ?_, rfl⟩
    rcases List.mem_cons.mp hother with rfl | hother
    · exact haccept.1
    · exact h other hother
  · exact ⟨h, rfl⟩

end BufferPool
end ShardMesh
