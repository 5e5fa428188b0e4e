import ShardMesh.Proofs.Wire.Canonical
import ShardMesh.Proofs.RoundTrip

/-!
# Nothing of earlier packets is in a frame

Scratch buffers are not cleared, so a packet is marshaled over what earlier packets left. That makes
no difference for packets that do not look at the buffer and write all that they report: what the
codec hands to the encryption stage, or the error that it gives, is that of a codec whose buffers are
fresh. All packets that write themselves with a writer are of this kind.
-/

namespace ShardMesh

/-! ## Imprints -/

/-- A buffer over which bytes were put at some places. -/
def Bytes.imprint (put : Nat → Option UInt8) (buffer : Bytes) : Bytes :=
  buffer.mapIdx fun i byte => (put i).getD byte

@[simp] theorem Bytes.length_imprint (put : Nat → Option UInt8) (buffer : Bytes) :
    (buffer.imprint put).length = buffer.length := List.length_mapIdx

/-- To overwrite is to put bytes at the places that follow each other. -/
theorem Bytes.overwrite_eq_imprint {buffer patch : Bytes} (h : patch.length ≤ buffer.length) :
    buffer.overwrite 0 patch = buffer.imprint fun i => patch[i]? := by
  refine List.ext_getElem? fun i => ?_
  rw [getElem?_overwrite (by omega), imprint, List.getElem?_mapIdx]
  by_cases hi : i < patch.length
  · rw [if_pos (by omega), List.getElem?_eq_getElem (l := buffer) (by omega), Nat.sub_zero,
      List.getElem?_eq_getElem hi]
    rfl
  · rw [if_neg (by omega), List.getElem?_eq_none (by omega : patch.length ≤ i)]
    simp

/-- Where bytes were put at every place, it does not matter over what. -/
theorem Bytes.take_imprint {put : Nat → Option UInt8} {buffer other : Bytes} {n : Nat}
    (hlength : other.length = buffer.length)
    (hput : ∀ i < n, i < buffer.length → (put i).isSome = true) :
    (other.imprint put).take n = (buffer.imprint put).take n := by
  refine List.ext_getElem? fun i => ?_
  rw [List.getElem?_take, List.getElem?_take]
  split
  · rename_i hi
    rw [imprint, imprint, List.getElem?_mapIdx, List.getElem?_mapIdx]
    by_cases hinside : i < buffer.length
    · obtain ⟨byte, hbyte⟩ := Option.isSome_iff_exists.mp (hput i hi hinside)
      rw [List.getElem?_eq_getElem hinside, List.getElem?_eq_getElem (hlength ▸ hinside), hbyte]
      rfl
    · rw [List.getElem?_eq_none (Nat.not_lt.mp hinside),
        List.getElem?_eq_none (hlength ▸ Nat.not_lt.mp hinside)]
  · rfl

namespace Packet

variable {P : Type} [Packet P]

/-- A packet that does not read the buffer that it is given, and writes every byte of the range that
    it reports: its answer, the places at which it puts bytes, and these bytes depend on nothing but
    the size of the buffer. -/
def Imprints (p : P) : Prop :=
  ∀ size, ∃ (answer : Except ProtocolError Nat) (put : Nat → Option UInt8),
    (∀ buffer : Bytes, buffer.length = size → marshal p buffer 0 = (answer, buffer.imprint put)) ∧
    ∀ n, answer = .ok n → ∀ i < n, i < size → (put i).isSome = true

/-- A packet that writes itself with a writer, which starts at the front of the buffer, and reports
    what was written. -/
def AsksWriter (p : P) : Prop :=
  ∃ ask : Wire.Writer → Except ProtocolError Unit × Wire.Writer, Wire.Writer.Script ask ∧
    ∀ buffer, marshal p buffer 0 =
      let (result, w) := ask (.atOffset buffer 0)
      (result.map fun () => w.written, w.buffer)

theorem AsksWriter.imprints {p : P} (h : AsksWriter p) : Imprints p := by
  obtain ⟨ask, hscript, hmarshal⟩ := h
  intro size
  obtain ⟨answer, patch, hpatch, hput⟩ := hscript.blind size 0
  have hfits : patch.length ≤ size := by
    rcases hpatch with rfl | hpatch
    · exact Nat.zero_le _
    · omega
  refine ⟨answer.map fun () => patch.length, fun i => patch[i]?, fun buffer hbuffer => ?_, ?_⟩
  · rw [hmarshal, hput (.atOffset buffer 0) hbuffer rfl]
    dsimp only
    rw [Wire.Writer.written_extend, ← Bytes.overwrite_eq_imprint (hbuffer ▸ hfits)]
    rfl
  · intro n hn i hi _
    cases answer with
    | error e => cases hn
    | ok done =>
      cases hn
      show (patch[i]?).isSome = true
      rw [List.getElem?_eq_getElem hi]
      rfl

/-- Rows of fields are written with a writer. -/
theorem asksWriter_of_fieldRow [FieldRow P] (p : P) : AsksWriter p :=
  ⟨_, Wire.Writer.script_putAll (FieldRow.fields p), fun buffer => FieldRow.marshal_eq p buffer 0⟩

end Packet

/-! ## What is handed to the encryption stage -/

/-- How much longer a payload is than what was encrypted does not depend on the nonce. -/
theorem Cipher.length_encrypt_eq {c : Cipher} (hkey : c.HasKey) (source other : NonceSource)
    (data : Bytes) : (c.encrypt source data).1.length = (c.encrypt other data).1.length := by
  cases c with
  | plain => rfl
  | sealed key =>
    have hlength (source : NonceSource) : ((Cipher.sealed key).encrypt source data).1.length =
        SealedBox.nonceLength + (data.length + SealedBox.tagLength) := by
      have hnonce : source.draw.1.length = SealedBox.nonceLength := Bytes.length_ofNatBE ..
      show (source.draw.1 ++ SealedBox.close key source.draw.1 data).length = _
      rw [List.length_append, SealedBox.length_close hkey hnonce, hnonce]
    rw [hlength, hlength]

namespace Codec

variable {P : Type} [Packet P]

/-- What a codec hands to the encryption stage for a packet, or why it comes to nothing before. -/
def handed (c : Codec P) (p : P) : Except ProtocolError Bytes :=
  match c.registry.indexOf? (Packet.kind p) with
  | none => .error (.unregisteredPacket (Packet.kindName p))
  | some _ => (c.marshal p).1.bind c.compress

/-- Encoding encrypts what is handed to the encryption stage, and frames it unless it is too long. -/
theorem encode_eq_handed (c : Codec P) (p : P) :
    (c.encode p).1 = (c.handed p).bind fun data =>
      let payload := (c.cipher.encrypt c.nonces data).1
      if Frame.maxPayload < payload.length then .error (.oversizedPacket payload.length)
      else .ok (Frame.assemble ((c.registry.indexOf? (Packet.kind p)).getD 0) payload) := by
  have hsettings := marshal_snd c p
  unfold encode handed
  cases c.registry.indexOf? (Packet.kind p) with
  | none => rfl
  | some index =>
    dsimp only
    rcases hmarshal : c.marshal p with ⟨_ | marshaled, next⟩
    · rfl
    · rw [hmarshal] at hsettings
      dsimp only at hsettings
      subst hsettings
      dsimp only [Except.bind, Option.getD_some]
      have hcompress : Codec.compress { c with
          scratch := c.scratch.acquire.2.release (Packet.marshal p c.scratch.acquire.1 0).2 }
            marshaled = c.compress marshaled := rfl
      rw [hcompress]
      cases c.compress marshaled with
      | error e => rfl
      | ok compressed =>
        dsimp only
        split <;> rfl

/-- A packet that writes over whatever is there marshals with every codec into the same bytes, whatever
    the scratch buffers hold. -/
theorem marshal_eq_of_imprints {p : P} (hp : Packet.Imprints p) {c c' : Codec P}
    (hc : c.scratch.Uniform) (hc' : c'.scratch.Uniform) (hsize : c'.scratchSize = c.scratchSize) :
    (c'.marshal p).1 = (c.marshal p).1 := by
  obtain ⟨answer, put, hmarshal, hput⟩ := hp c.scratchSize
  have hbuffer : c.scratch.acquire.1.length = c.scratchSize := hc.acquire.1
  have hbuffer' : c'.scratch.acquire.1.length = c.scratchSize := hc'.acquire.1.trans hsize
  have hsame := hbuffer'.trans hbuffer.symm
  unfold marshal
  dsimp only
  rw [hmarshal _ hbuffer, hmarshal _ hbuffer']
  cases answer with
  | error e => rfl
  | ok n =>
    rw [← hbuffer] at hput
    dsimp only
    rw [Bytes.length_imprint, Bytes.length_imprint, hsame, Bytes.take_imprint hsame (hput n rfl)]
    split <;> rfl

section Continues

variable {c c' : Codec P} {p : P}

/-- A codec of the same settings hands the same bytes to the encryption stage. -/
theorem Continues.handed_eq (h : c.Continues c') (hc : c.scratch.Uniform)
    (hp : Packet.Imprints p) : c'.handed p = c.handed p := by
  unfold handed
  rw [marshal_eq_of_imprints hp hc (h.uniform hc) h.scratchSize, h.registry,
    funext h.compress_eq]

/-- A codec of the same settings refuses the same packets, with the same errors. -/
theorem Continues.encode_error_iff (h : c.Continues c') (hc : c.scratch.Uniform)
    (hkey : c.cipher.HasKey) (hp : Packet.Imprints p) (e : ProtocolError) :
    (c'.encode p).1 = .error e ↔ (c.encode p).1 = .error e := by
  rw [encode_eq_handed, encode_eq_handed, h.handed_eq hc hp, h.registry, h.cipher]
  cases c.handed p with
  | error e' => exact Iff.rfl
  | ok data =>
    dsimp only [Except.bind]
    rw [Cipher.length_encrypt_eq hkey c'.nonces c.nonces data]
    split
    · exact Iff.rfl
    · exact ⟨fun h => (nomatch h), fun h => (nomatch h)⟩

/-- Without encryption, a codec of the same settings makes the same frames. -/
theorem Continues.encode_eq_of_plain (h : c.Continues c') (hc : c.scratch.Uniform)
    (hplain : c.cipher = .plain) (hp : Packet.Imprints p) : (c'.encode p).1 = (c.encode p).1 := by
  rw [encode_eq_handed, encode_eq_handed, h.handed_eq hc hp, h.registry, h.cipher, hplain]
  rfl

end Continues

/-- Nothing of what a codec encoded before is handed to the encryption stage with a packet that does
    not read the buffer and writes all that it reports, as every packet does that writes itself with a
    writer. Whatever packets a codec has encoded or refused, what it hands to the encryption stage is
    what a codec of the same settings does that has encoded nothing, and it gives the same errors. If it
    does not encrypt, the frames are the same. -/
theorem encoded_as_by_fresh (registry : PacketRegistry P) (compression : Compression)
    (compressors : Compressors) {cipher : Cipher} (hkey : cipher.HasKey) (size : Nat)
    (nonces supply : NonceSource) (history : List P) :
    let used : Codec P := afterEncoding
      ⟨registry, compression, cipher, BufferPool.ofSize scratchCount size, nonces, compressors⟩
      history
    let fresh : Codec P :=
      ⟨registry, compression, cipher, BufferPool.ofSize scratchCount size, supply, compressors⟩
    (∀ p : P, Packet.AsksWriter p → Packet.Imprints p) ∧
    ∀ p : P, Packet.Imprints p →
      used.handed p = fresh.handed p ∧
      (∀ e, (used.encode p).1 = .error e ↔ (fresh.encode p).1 = .error e) ∧
      (cipher = .plain → (used.encode p).1 = (fresh.encode p).1) := by
  intro used fresh
  have huniform := BufferPool.uniform_ofSize scratchCount size
  have hused := afterEncoding_continues
    ⟨registry, compression, cipher, BufferPool.ofSize scratchCount size, nonces, compressors⟩ history
    huniform
  -- where the nonces of the fresh codec come from is no setting of it
  have hcontinues : fresh.Continues used :=
    ⟨hused.registry, hused.compression, hused.compressors, hused.cipher, hused.scratchSize,
      hused.uniform⟩
  exact ⟨fun p => Packet.AsksWriter.imprints, fun p hp => ⟨hcontinues.handed_eq huniform hp,
    hcontinues.encode_error_iff huniform hkey hp,
    fun hplain => hcontinues.encode_eq_of_plain huniform hplain hp⟩⟩

/-- A short packet is encoded after a longer one was refused with its first bytes in the buffer. -/
theorem encoded_over_refused_packet :
    let refused : FieldPacket := ⟨⟨"Secret"⟩, [.raw [1, 2, 3, 4, 5, 6], .u64 9]⟩
    let short : FieldPacket := ⟨⟨"Note"⟩, [.u16 7]⟩
    let fresh : Codec FieldPacket :=
      ⟨⟨[refused, short]⟩, .none, .plain, BufferPool.ofSize scratchCount 8, ⟨0⟩, .standard⟩
    let used := fresh.afterEncoding [refused]
    used.scratch.idle.head? = some [1, 2, 3, 4, 5, 6, 0, 0] ∧
      used.handed short = fresh.handed short ∧
      (∀ e, (used.encode short).1 = .error e ↔ (fresh.encode short).1 = .error e) ∧
      (used.encode short).1 = (fresh.encode short).1 ∧
      (used.encode short).1 = .ok [0, 2, 1, 0, 7] := by
  intro refused short fresh used
  obtain ⟨himprints, hsame⟩ := encoded_as_by_fresh ⟨[refused, short]⟩ .none .standard
    (show Cipher.plain.HasKey from trivial) 8 ⟨0⟩ ⟨0⟩ [refused]
  obtain ⟨hhanded, herrors, hframes⟩ :=
    hsame short (himprints short (Packet.asksWriter_of_fieldRow short))
  have hframe : (fresh.encode short).1 = .ok [0, 2, 1, 0, 7] := by
    have hdata : fresh.handed short = .ok [0, 7] := by rfl
    have hindex : fresh.registry.indexOf? (Packet.kind short) = some 1 := by rfl
    have hclear : (fresh.cipher.encrypt fresh.nonces [0, 7]).1 = [0, 7] := rfl
    rw [encode_eq_handed, hdata, hindex]
    dsimp only [Except.bind]
    rw [hclear]
    rfl
  exact ⟨by rfl, hhanded, herrors, hframes rfl, (hframes rfl).trans hframe⟩

end Codec
end ShardMesh
