import ShardMesh.Text.Printable

/-!
# Values as they appear in diagnostics

Diagnostics show a text between double quotes with its unprintable characters escaped, an absent
value as `None`, a present one as `Some(…)`, and a list between square brackets.
-/

namespace ShardMesh.Text

/-- The lowercase hexadecimal digits of a number. -/
def hexOf (n : Nat) : String := String.ofList (Nat.toDigits 16 n)

/-- The written form of one character inside double quotes. -/
def quotedChar (c : Char) : String :=
  if c = '"' then "\\\""
  else if c = '\\' then "\\\\"
  else if c = '\t' then "\\t"
  else if c = '\n' then "\\n"
  else if c = '\r' then "\\r"
  else if c.toNat = 0 then "\\0"
  else if isPrintable c then String.singleton c
  else "\\u\x7b" ++ hexOf c.toNat ++ "\x7d"

/-- A text between double quotes. -/
def quoted (text : String) : String :=
  "\"" ++ String.join (text.toList.map quotedChar) ++ "\""

/-- Items between square brackets. -/
def listing (items : List String) : String :=
  "[" ++ String.intercalate ", " items ++ "]"

/-- A value that may be absent. -/
def optional : Option String → String
  | none => "None"
  | some value => "Some(" ++ value ++ ")"

/-- Yes or no. -/
def truth (b : Bool) : String := if b then "true" else "false"

end ShardMesh.Text
