/-!
# Byte strings

Everything that crosses the network is a byte string. This module gives the type, the fixed-width
number encodings in both byte orders, and hexadecimal text.
-/

namespace ShardMesh

/-- A string of bytes. -/
abbrev Bytes := List UInt8

namespace Bytes

/-- The low `width` base-256 digits of a number, most significant first. -/
def ofNatBE : (width : Nat) → Nat → Bytes
  | 0, _ => []
  | width + 1, n => UInt8.ofNat (n / Nat.pow 256 width) :: ofNatBE width n

/-- The number whose base-256 digits are given, most significant first. -/
def toNatBE (bytes : Bytes) : Nat :=
  bytes.foldl (fun n b => n * 256 + b.toNat) 0

/-- The low `width` base-256 digits of a number, least significant first. -/
def ofNatLE : (width : Nat) → Nat → Bytes
  | 0, _ => []
  | width + 1, n => UInt8.ofNat n :: ofNatLE width (n / 256)

/-- The number whose base-256 digits are given, least significant first. -/
def toNatLE : Bytes → Nat
  | [] => 0
  | b :: bytes => b.toNat + 256 * toNatLE bytes

/-- The bytes from `position` on are replaced by `patch`; the rest stays. -/
def overwrite (bytes : Bytes) (position : Nat) (patch : Bytes) : Bytes :=
  bytes.take position ++ patch ++ bytes.drop (position + patch.length)

/-- The bytes at positions `start`, …, `start + count - 1`. -/
def slice (bytes : Bytes) (start count : Nat) : Bytes :=
  (bytes.drop start).take count

/-- A byte string as a packed array. -/
def pack (bytes : Bytes) : ByteArray :=
  ⟨bytes.toArray⟩

/-- The UTF-8 form of a text. -/
def ofText (text : String) : Bytes :=
  text.toUTF8.data.toList

/-- The text of which the bytes are the UTF-8 form, if they are well-formed. -/
def toText? (bytes : Bytes) : Option String :=
  String.fromUTF8? bytes.pack

/-! ## Hexadecimal -/

/-- The lowercase hexadecimal digit of a number below 16. -/
def hexDigit (n : Nat) : Char :=
  Char.ofNat (if n < 10 then 48 + n else 87 + n)

/-- Two lowercase hexadecimal digits per byte. -/
def toHex (bytes : Bytes) : String :=
  String.ofList (bytes.flatMap fun b => [hexDigit (b.toNat / 16), hexDigit (b.toNat % 16)])

/-- The value of a hexadecimal digit in either case. -/
def hexValue? (c : Char) : Option Nat :=
  if c.isDigit then some (c.toNat - 48)
  else if 'a' ≤ c ∧ c ≤ 'f' then some (c.toNat - 87)
  else if 'A' ≤ c ∧ c ≤ 'F' then some (c.toNat - 55)
  else none

/-- Reads pairs of hexadecimal digits. -/
def ofHexChars? : List Char → Option Bytes
  | [] => some []
  | [_] => none
  | a :: b :: rest => do
    let high ← hexValue? a
    let low ← hexValue? b
    return UInt8.ofNat (16 * high + low) :: (← ofHexChars? rest)

/-- Reads hexadecimal text, two digits per byte. -/
def ofHex? (text : String) : Option Bytes :=
  ofHexChars? text.toList

/-! ## Small laws -/

@[simp] theorem length_ofNatBE (width n : Nat) : (ofNatBE width n).length = width := by
  induction width with
  | zero => rfl
  | succ width ih => simp [ofNatBE, ih]

@[simp] theorem length_ofNatLE (width n : Nat) : (ofNatLE width n).length = width := by
  induction width generalizing n with
  | zero => rfl
  | succ width ih => simp [ofNatLE, ih]

/-- Patching inside a byte string keeps its length. -/
theorem length_overwrite {bytes patch : Bytes} {position : Nat}
    (h : position + patch.length ≤ bytes.length) :
    (bytes.overwrite position patch).length = bytes.length := by
  simp only [overwrite, List.length_append, List.length_take, List.length_drop]
  omega

end Bytes
end ShardMesh
