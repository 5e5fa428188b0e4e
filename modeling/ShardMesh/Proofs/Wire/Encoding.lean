import ShardMesh.Wire.Reader
import ShardMesh.Proofs.Numbers
import ShardMesh.Proofs.Text.Encodings

/-!
# Values and their bytes

A value is written as its body, with the length in front where a reader cannot know it. What a type
accepts as a body is the body of one value of the type, and of no other: booleans are one of two
bytes, texts are well-formed, and numbers fill their width.
-/

namespace ShardMesh.Wire

/-! ## Encodings -/

namespace Value

/-- The length, if the value is written with one in front, fits in two bytes. -/
def Writable (v : Value) : Prop := v.isPrefixed = true → v.body.length ≤ maxPrefixedLength

theorem encoding_of_prefixed {v : Value} (h : v.isPrefixed = true) :
    v.encoding = Bytes.ofNatBE 2 v.body.length ++ v.body := if_pos h

theorem encoding_of_bare {v : Value} (h : v.isPrefixed = false) : v.encoding = v.body :=
  if_neg (h ▸ Bool.false_ne_true)

theorem writable_of_bare {v : Value} (h : v.isPrefixed = false) : v.Writable :=
  fun hprefixed => absurd (h.symm.trans hprefixed) Bool.false_ne_true

theorem not_writable_iff {v : Value} :
    ¬ v.Writable ↔ v.isPrefixed = true ∧ maxPrefixedLength < v.body.length := by
  rw [Writable, Classical.not_imp, Nat.not_le]

end Value

/-- The written form of a row of values. -/
def encodingOf (values : List Value) : Bytes := values.flatMap Value.encoding

@[simp] theorem encodingOf_nil : encodingOf [] = [] := rfl

@[simp] theorem encodingOf_cons (v : Value) (values : List Value) :
    encodingOf (v :: values) = v.encoding ++ encodingOf values := rfl

@[simp] theorem encodingOf_append (values more : List Value) :
    encodingOf (values ++ more) = encodingOf values ++ encodingOf more :=
  List.flatMap_append

/-! ## What a type accepts -/

namespace FieldType

/-- The length of the bodies of a type, if they have one length. -/
def width? : FieldType → Option Nat
  | .u8 | .bool => some 1
  | .u16 => some 2
  | .u32 | .i32 => some 4
  | .u64 | .i64 => some 8
  | .raw length => some length
  | .bytes | .text => none

/-- The value of a type that a body stands for. -/
def read : FieldType → Bytes → Except ProtocolError Value
  | .u8, body => .ok (.u8 (UInt8.ofNat body.toNatBE))
  | .bool, body => (Reader.booleanOf (UInt8.ofNat body.toNatBE)).map .bool
  | .u16, body => .ok (.u16 (UInt16.ofNat body.toNatBE))
  | .u32, body => .ok (.u32 (UInt32.ofNat body.toNatBE))
  | .i32, body => .ok (.i32 (UInt32.ofNat body.toNatBE).toInt32)
  | .u64, body => .ok (.u64 (UInt64.ofNat body.toNatBE))
  | .i64, body => .ok (.i64 (UInt64.ofNat body.toNatBE).toInt64)
  | .raw _, body => .ok (.raw body)
  | .bytes, body => .ok (.bytes body)
  | .text, body => (Reader.textOf body).map .text

end FieldType

/-- A value has its length in front exactly if its type leaves the length open. -/
theorem Value.isPrefixed_eq (v : Value) : v.isPrefixed = v.type.width?.isNone := by
  cases v <;> rfl

theorem Value.length_body {v : Value} {width : Nat} (h : v.type.width? = some width) :
    v.body.length = width := by
  cases v <;> simp_all [Value.type, FieldType.width?, Value.body]

/-- Numbers that fill a width: each stands for a natural number, and each natural number that the
    width has room for is meant by one. -/
structure Numeral (ν : Type) (width : Nat) where
  toNat : ν → Nat
  ofNat : Nat → ν
  ofNat_toNat : ∀ x, ofNat (toNat x) = x
  toNat_lt : ∀ x, toNat x < Nat.pow 256 width
  toNat_ofNat : ∀ n, n < Nat.pow 256 width → toNat (ofNat n) = n

/-- A number is what bytes of its width are read as exactly if it is written as these bytes. -/
theorem Numeral.ofNat_toNatBE_eq_iff {ν : Type} {width : Nat} (numeral : Numeral ν width)
    {body : Bytes} (hbody : body.length = width) (x : ν) :
    numeral.ofNat body.toNatBE = x ↔ Bytes.ofNatBE width (numeral.toNat x) = body := by
  constructor
  · rintro rfl
    rw [numeral.toNat_ofNat _ (hbody ▸ Bytes.toNatBE_lt body), ← hbody, Bytes.ofNatBE_toNatBE]
  · rintro rfl
    rw [Bytes.toNatBE_ofNatBE (numeral.toNat_lt x), numeral.ofNat_toNat]

/-- A type of numbers accepts every body of its width, as the number that is written so. -/
theorem Numeral.read_eq_iff {ν : Type} {width : Nat} (numeral : Numeral ν width) {t : FieldType}
    (make : ν → Value) (hmake : ∀ v : Value, v.type = t ↔ ∃ x, make x = v)
    (hvalue : ∀ x, (make x).body = Bytes.ofNatBE width (numeral.toNat x)) {body : Bytes}
    (hbody : body.length = width) {v : Value} :
    make (numeral.ofNat body.toNatBE) = v ↔ v.type = t ∧ v.body = body := by
  constructor
  · rintro rfl
    refine ⟨(hmake _).mpr ⟨_, rfl⟩, ?_⟩
    rw [hvalue, ← numeral.ofNat_toNatBE_eq_iff hbody]
  · rintro ⟨htype, hv⟩
    obtain ⟨x, rfl⟩ := (hmake v).mp htype
    rw [hvalue, ← numeral.ofNat_toNatBE_eq_iff hbody] at hv
    rw [hv]

def u8Numeral : Numeral UInt8 1 :=
  ⟨UInt8.toNat, UInt8.ofNat, fun _ => UInt8.ofNat_toNat, UInt8.toNat_lt,
    fun _ => UInt8.toNat_ofNat_of_lt'⟩

def u16Numeral : Numeral UInt16 2 :=
  ⟨UInt16.toNat, UInt16.ofNat, fun _ => UInt16.ofNat_toNat, UInt16.toNat_lt,
    fun _ => UInt16.toNat_ofNat_of_lt'⟩

def u32Numeral : Numeral UInt32 4 :=
  ⟨UInt32.toNat, UInt32.ofNat, fun _ => UInt32.ofNat_toNat, UInt32.toNat_lt,
    fun _ => UInt32.toNat_ofNat_of_lt'⟩

/-- Signed numbers are written as the unsigned ones with the same bits. -/
def i32Numeral : Numeral Int32 4 :=
  ⟨fun x => x.toUInt32.toNat, fun n => (UInt32.ofNat n).toInt32, fun x => by simp,
    fun x => x.toUInt32.toNat_lt, fun n h => by simpa using UInt32.toNat_ofNat_of_lt' h⟩

def u64Numeral : Numeral UInt64 8 :=
  ⟨UInt64.toNat, UInt64.ofNat, fun _ => UInt64.ofNat_toNat, UInt64.toNat_lt,
    fun _ => UInt64.toNat_ofNat_of_lt'⟩

def i64Numeral : Numeral Int64 8 :=
  ⟨fun x => x.toUInt64.toNat, fun n => (UInt64.ofNat n).toInt64, fun x => by simp,
    fun x => x.toUInt64.toNat_lt, fun n h => by simpa using UInt64.toNat_ofNat_of_lt' h⟩

theorem booleanOf_eq_ok_iff {byte : UInt8} {b : Bool} :
    Reader.booleanOf byte = .ok b ↔ byte = if b then 1 else 0 := by
  unfold Reader.booleanOf
  by_cases hzero : byte = 0
  · subst hzero
    cases b <;> simp
  · by_cases hone : byte = 1
    · subst hone
      cases b <;> simp
    · cases b <;> simp [hzero, hone]

theorem textOf_eq_ok_iff {bytes : Bytes} {text : String} :
    Reader.textOf bytes = .ok text ↔ bytes = Bytes.ofText text := by
  rw [← Bytes.toText?_eq_some_iff]
  unfold Reader.textOf Utf8.decode
  cases bytes.toText? <;> simp

theorem map_eq_ok_iff {ε α β : Type} {f : α → β} {x : Except ε α} {b : β} :
    x.map f = .ok b ↔ ∃ a, x = .ok a ∧ f a = b := by
  cases x <;> simp [Except.map]

/-- A type accepts the bodies of its values, each for one value. -/
theorem FieldType.read_eq_ok_iff {t : FieldType} {body : Bytes}
    (hbody : ∀ width, t.width? = some width → body.length = width) {v : Value} :
    t.read body = .ok v ↔ v.type = t ∧ v.body = body := by
  cases t with
  | u8 =>
    rw [read, Except.ok.injEq]
    exact u8Numeral.read_eq_iff .u8 (fun v => by cases v <;> simp [Value.type])
      (fun x => (Bytes.ofNatBE_one x).symm) (hbody 1 rfl)
  | bool =>
    obtain ⟨byte, rfl⟩ := List.length_eq_one_iff.mp (hbody 1 rfl)
    have hbyte : UInt8.ofNat (Bytes.toNatBE [byte]) = byte := by
      simp [Bytes.toNatBE]
    rw [read, hbyte, map_eq_ok_iff]
    constructor
    · rintro ⟨b, hread, rfl⟩
      rw [booleanOf_eq_ok_iff.mp hread]
      exact ⟨rfl, rfl⟩
    · rintro ⟨htype, hv⟩
      cases v <;> cases htype
      exact ⟨_, booleanOf_eq_ok_iff.mpr (List.singleton_inj.mp hv).symm, rfl⟩
  | u16 =>
    rw [read, Except.ok.injEq]
    exact u16Numeral.read_eq_iff .u16 (fun v => by cases v <;> simp [Value.type]) (fun _ => rfl)
      (hbody 2 rfl)
  | u32 =>
    rw [read, Except.ok.injEq]
    exact u32Numeral.read_eq_iff .u32 (fun v => by cases v <;> simp [Value.type]) (fun _ => rfl)
      (hbody 4 rfl)
  | i32 =>
    rw [read, Except.ok.injEq]
    exact i32Numeral.read_eq_iff .i32 (fun v => by cases v <;> simp [Value.type]) (fun _ => rfl)
      (hbody 4 rfl)
  | u64 =>
    rw [read, Except.ok.injEq]
    exact u64Numeral.read_eq_iff .u64 (fun v => by cases v <;> simp [Value.type]) (fun _ => rfl)
      (hbody 8 rfl)
  | i64 =>
    rw [read, Except.ok.injEq]
    exact i64Numeral.read_eq_iff .i64 (fun v => by cases v <;> simp [Value.type]) (fun _ => rfl)
      (hbody 8 rfl)
  | raw length =>
    rw [read, Except.ok.injEq]
    constructor
    · rintro rfl
      exact ⟨congrArg FieldType.raw (hbody length rfl), rfl⟩
    · rintro ⟨htype, rfl⟩
      cases v <;> cases htype
      rfl
  | bytes =>
    rw [read, Except.ok.injEq]
    constructor
    · rintro rfl
      exact ⟨rfl, rfl⟩
    · rintro ⟨htype, rfl⟩
      cases v <;> cases htype
      rfl
  | text =>
    rw [read, map_eq_ok_iff]
    constructor
    · rintro ⟨text, hread, rfl⟩
      exact ⟨rfl, (textOf_eq_ok_iff.mp hread).symm⟩
    · rintro ⟨htype, rfl⟩
      cases v <;> cases htype
      exact ⟨_, textOf_eq_ok_iff.mpr rfl, rfl⟩

end ShardMesh.Wire
