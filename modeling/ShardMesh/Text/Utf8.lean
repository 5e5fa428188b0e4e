import ShardMesh.Bytes

/-!
# Reading UTF-8 with a diagnosis

A byte string is either the UTF-8 form of a text or ill-formed at a definite place. `Utf8.decode`
gives the text or that place: the length of the longest well-formed beginning, and how many bytes
after it can never be completed to a character (none if the input merely ends too early).
-/

namespace ShardMesh

/-- Where and how a byte string stops being UTF-8. -/
structure Utf8Error where
  /-- The length of the longest well-formed beginning. -/
  validUpTo : Nat
  /-- How many bytes there are wrong; absent if more input could complete the character. -/
  badLength : Option Nat
  deriving DecidableEq, Repr, Inhabited

namespace Utf8

/-- Whether a byte may continue a character. -/
def isContinuation (b : UInt8) : Bool := 0x80 ≤ b && b ≤ 0xBF

/-- How many bytes follow the leading byte of a character. -/
def tailLength? (lead : UInt8) : Option Nat :=
  if lead < 0x80 then some 0
  else if 0xC2 ≤ lead && lead ≤ 0xDF then some 1
  else if 0xE0 ≤ lead && lead ≤ 0xEF then some 2
  else if 0xF0 ≤ lead && lead ≤ 0xF4 then some 3
  else none

/-- Whether a byte may follow the leading byte: overlong forms, surrogates and code points past
the last one are excluded here. -/
def isSecond (lead second : UInt8) : Bool :=
  if lead == 0xE0 then 0xA0 ≤ second && second ≤ 0xBF
  else if lead == 0xED then 0x80 ≤ second && second ≤ 0x9F
  else if lead == 0xF0 then 0x90 ≤ second && second ≤ 0xBF
  else if lead == 0xF4 then 0x80 ≤ second && second ≤ 0x8F
  else isContinuation second

/-- The number of bytes after the leading byte `lead`, or how many bytes are wrong. -/
def sequenceTail (lead : UInt8) (rest : Bytes) : Except (Option Nat) Nat :=
  match tailLength? lead with
  | none => .error (some 1)
  | some 0 => .ok 0
  | some (n + 1) =>
    match rest with
    | [] => .error none
    | second :: rest =>
      if !isSecond lead second then .error (some 1)
      else
        let good := ((rest.take n).takeWhile isContinuation).length
        if good = n then .ok (n + 1)
        else if good = rest.length then .error none
        else .error (some (good + 2))

/-- The first ill-formed place of a byte string that starts at offset `position`. -/
def firstError (bytes : Bytes) (position : Nat) : Option Utf8Error :=
  match bytes with
  | [] => none
  | lead :: rest =>
    match sequenceTail lead rest with
    | .ok n => firstError (rest.drop n) (position + n + 1)
    | .error bad => some ⟨position, bad⟩
termination_by bytes.length
decreasing_by simp only [List.length_drop, List.length_cons]; omega

/-- The text of which the bytes are the UTF-8 form, or the place where they stop being UTF-8. -/
def decode (bytes : Bytes) : Except Utf8Error String :=
  match bytes.toText? with
  | some text => .ok text
  | none => .error ((firstError bytes 0).getD ⟨0, none⟩)

end Utf8

/-- The diagnosis in words. -/
def Utf8Error.message (e : Utf8Error) : String :=
  match e.badLength with
  | some n =>
    "invalid utf-8 sequence of " ++ toString n ++ " bytes from index " ++ toString e.validUpTo
  | none => "incomplete utf-8 byte sequence from index " ++ toString e.validUpTo

end ShardMesh
