import ShardMesh.Packet.Basic
import ShardMesh.Proofs.Wire.Reader
import ShardMesh.Proofs.Wire.Writer

/-!
# What is read is written back

Values have one written form. A row of values that was read from some bytes is written as these bytes,
wherever there is room for them (`Reader.putAll_of_getAll`), and so is a packet that is nothing but a
row of fields (`FieldRow.marshal_of_unmarshal`).
-/

namespace ShardMesh

namespace Wire.Reader

/-- The bytes that a row of values was read from are the written forms of the values. -/
theorem slice_of_getAll {buffer : Bytes} {offset stop : Nat} {types : List FieldType}
    {values : List Value} {r : Reader}
    (h : (ofRange buffer offset stop).getAll types = (.ok values, r)) :
    r.consumed = (encodingOf values).length ∧ buffer.slice offset r.consumed = encodingOf values := by
  obtain ⟨-, -, hholds, rfl⟩ := getAll_eq_ok_iff.mp h
  refine ⟨consumed_advance .., ?_⟩
  rw [consumed_advance]
  by_cases hnil : values = []
  · rw [hnil]
    exact List.take_zero
  · exact (hholds hnil).stand.slice

/-- A row of values that was read from some bytes is written as these bytes. -/
theorem putAll_of_getAll {buffer : Bytes} {offset stop : Nat} {types : List FieldType}
    {values : List Value} {r : Reader}
    (h : (ofRange buffer offset stop).getAll types = (.ok values, r)) {w : Writer}
    (hroom : w.position + r.consumed ≤ w.buffer.length) :
    w.putAll values = (.ok (), w.extend (buffer.slice offset r.consumed)) := by
  obtain ⟨hconsumed, hslice⟩ := slice_of_getAll h
  rw [hslice]
  rw [hconsumed] at hroom
  exact Writer.putAll_of_room (getAll_eq_ok_iff.mp h).2.1 fun _ => hroom

end Wire.Reader

/-! ## Packets -/

/-- A family whose packets are rows of fields: a packet writes its row, and reads a row of the same
    types. -/
class FieldRow (P : Type) [Packet P] where
  fields : P → List Wire.Value
  /-- What is written are the fields in order. -/
  marshal_eq (p : P) (buffer : Bytes) (offset : Nat) :
    Packet.marshal p buffer offset =
      let (result, w) := (Wire.Writer.atOffset buffer offset).putAll (fields p)
      (result.map fun () => w.written, w.buffer)
  /-- What is read are fields of the types that the packet has. -/
  getAll_of_unmarshal (p q : P) (buffer : Bytes) (offset stop n : Nat) :
    Packet.unmarshal p buffer offset stop = (.ok n, q) →
      ∃ r, (Wire.Reader.ofRange buffer offset stop).getAll ((fields p).map Wire.Value.type) =
        (.ok (fields q), r) ∧ r.consumed = n

section FieldRow

variable {P : Type} [Packet P] [FieldRow P] {p q : P} {buffer : Bytes} {offset stop n : Nat}

/-- The bytes that a packet says it consumed are there. -/
theorem FieldRow.length_slice_of_unmarshal (h : Packet.unmarshal p buffer offset stop = (.ok n, q)) :
    (buffer.slice offset n).length = n := by
  obtain ⟨r, hread, rfl⟩ := getAll_of_unmarshal p q buffer offset stop n h
  obtain ⟨hconsumed, hslice⟩ := Wire.Reader.slice_of_getAll hread
  rw [hslice, hconsumed]

/-- A packet that was read from some bytes is written as these bytes. -/
theorem FieldRow.marshal_of_unmarshal (h : Packet.unmarshal p buffer offset stop = (.ok n, q))
    {buffer' : Bytes} {offset' : Nat} (hroom : offset' + n ≤ buffer'.length) :
    Packet.marshal q buffer' offset' = (.ok n, buffer'.overwrite offset' (buffer.slice offset n)) := by
  have hlength := length_slice_of_unmarshal h
  obtain ⟨r, hread, rfl⟩ := getAll_of_unmarshal p q buffer offset stop n h
  have hput := Wire.Reader.putAll_of_getAll (w := .atOffset buffer' offset') hread hroom
  rw [marshal_eq, hput]
  dsimp only
  rw [Wire.Writer.written_extend, hlength]
  rfl

end FieldRow

namespace FieldPacket

/-- Fields that are all set were read one after the other. -/
theorem getAll_of_readFields {r r' : Wire.Reader} {fields read : List Wire.Value}
    (h : readFields r fields = (.ok r', read)) :
    r.getAll (fields.map Wire.Value.type) = (.ok read, r') := by
  induction fields generalizing r read with
  | nil =>
    cases h
    rfl
  | cons v fields ih =>
    rw [readFields] at h
    rcases hget : r.get v.type with ⟨e | first, next⟩
    · rw [hget] at h
      cases h
    · rw [hget] at h
      dsimp only at h
      rcases hrest : readFields next fields with ⟨result, rest⟩
      rw [hrest] at h
      cases h
      rw [List.map_cons, Wire.Reader.getAll_cons_of_ok hget, ih hrest]
      rfl

instance : FieldRow FieldPacket where
  fields := FieldPacket.fields
  marshal_eq p buffer offset := by
    show FieldPacket.marshal p buffer offset = _
    unfold FieldPacket.marshal
    rcases (Wire.Writer.atOffset buffer offset).putAll p.fields with ⟨_ | _, w⟩ <;> rfl
  getAll_of_unmarshal p q buffer offset stop n h := by
    change FieldPacket.unmarshal p buffer offset stop = (.ok n, q) at h
    unfold FieldPacket.unmarshal at h
    rcases hread : readFields (Wire.Reader.ofRange buffer offset stop) p.fields with ⟨_ | r, read⟩
    · rw [hread] at h
      cases h
    · rw [hread] at h
      cases h
      exact ⟨r, getAll_of_readFields hread, rfl⟩

end FieldPacket

/-- A probe is the row of its time stamp. -/
instance : FieldRow Ping where
  fields p := [.u64 p.sentAtMicros]
  marshal_eq p buffer offset := by
    show Ping.marshal p buffer offset = _
    unfold Ping.marshal
    rw [Wire.Writer.putAll]
    rcases (Wire.Writer.atOffset buffer offset).put _ with ⟨_ | _, w⟩ <;> rfl
  getAll_of_unmarshal p q buffer offset stop n h := by
    change Ping.unmarshal p buffer offset stop = (.ok n, q) at h
    unfold Ping.unmarshal at h
    rcases hget : (Wire.Reader.ofRange buffer offset stop).get .u64 with ⟨_ | v, r⟩
    · rw [hget] at h
      cases h
    · obtain ⟨htype, -⟩ := Wire.Reader.get_eq_ok_iff.mp hget
      cases v <;> cases htype
      rw [hget] at h
      cases h
      exact ⟨r, Wire.Reader.getAll_cons_of_ok hget [], rfl⟩

end ShardMesh
