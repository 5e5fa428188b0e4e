import ShardMesh.Bytes
import ShardMesh.Toml.Value

/-!
# Numbers, dates and truth values

A scalar is recognised by its whole text, from its first character to the character that ends it.
Integers have 64 bits. Underscores may stand between digits, never at the ends or side by side.
-/

namespace ShardMesh.Toml.Scalar

/-- Whether a character is a digit of a base up to sixteen. -/
def isDigitOf (base : Nat) (c : Char) : Bool :=
  (Bytes.hexValue? c).any (· < base)

/-- Digits of a base without the single underscores between them. -/
def ungrouped? (base : Nat) (digits : List Char) : Option (List Char) :=
  let pieces := Text.fields '_' digits
  if pieces.all fun piece => !piece.isEmpty && piece.all (isDigitOf base) then some pieces.flatten
  else none

/-- The number that digits of a base denote. -/
def valueOf (base : Nat) (digits : List Char) : Nat :=
  digits.foldl (fun n c => base * n + (Bytes.hexValue? c).getD 0) 0

/-- An optional sign, said as whether the number is negative, and what follows it. -/
def sign : List Char → Bool × List Char
  | '-' :: rest => (true, rest)
  | '+' :: rest => (false, rest)
  | rest => (false, rest)

/-- Decimal digits, grouped or not, of which the first is zero only if it is the only one. -/
def decimal? (digits : List Char) : Option (List Char) :=
  match ungrouped? 10 digits with
  | some ('0' :: _ :: _) => none
  | some digits => if digits.isEmpty then none else some digits
  | none => none

/-- The digits of a text in one of the bases that are announced. -/
def based? (text : List Char) : Option Nat :=
  match text with
  | '0' :: 'x' :: digits => (ungrouped? 16 digits).map (valueOf 16)
  | '0' :: 'o' :: digits => (ungrouped? 8 digits).map (valueOf 8)
  | '0' :: 'b' :: digits => (ungrouped? 2 digits).map (valueOf 2)
  | _ => none

/-- The least number that is too large for an integer: integers have 64 bits with a sign. -/
def integerBound : Nat := Nat.pow 2 63

/-- An integer. -/
def integer? (text : List Char) : Option Value :=
  match based? text with
  | some n => if n < integerBound then some (.integer n) else none
  | none => do
    let (negative, digits) := sign text
    let n := valueOf 10 (← decimal? digits)
    if negative then (if n ≤ integerBound then some (.integer (-n)) else none)
    else if n < integerBound then some (.integer n) else none

/-- What stands before the first character that passes a test, and what from there on. -/
def cutBefore (stop : Char → Bool) (text : List Char) : List Char × List Char :=
  (text.takeWhile (fun c => !stop c), text.dropWhile (fun c => !stop c))

/-- An exponent: `e`, an optional sign and digits; none is zero. -/
def exponent? : List Char → Option Int
  | [] => some 0
  | c :: rest =>
    if c = 'e' ∨ c = 'E' then do
      let (negative, digits) := sign rest
      let n : Int := valueOf 10 (← ungrouped? 10 digits)
      return if negative then -n else n
    else none

/-- The number with the given digits and power of ten. A power that no digits can bring into
reach is not computed. -/
def ofDigits (negative : Bool) (digits : List Char) (exponent : Int) : Number :=
  let n := valueOf 10 digits
  let top := exponent + digits.length
  if n = 0 ∨ top < -400 then .finite negative ⟨0, Binary64.minExponent⟩
  else if 400 + digits.length < top then .infinite negative
  else
    let (num, den) := Decimal.tenfold n exponent
    match Binary64.nearest? num den with
    | some x => .finite negative x
    | none => .infinite negative

/-- The fraction after the whole part of a number, and what follows; without a fraction, something
has to follow. -/
def fraction? : List Char → Option (List Char × List Char)
  | '.' :: rest =>
    let (digits, rest) := cutBefore (fun c => c = 'e' || c = 'E') rest
    (ungrouped? 10 digits).map fun digits => (digits, rest)
  | rest => if rest.isEmpty then none else some ([], rest)

/-- A number with a fraction or an exponent, or one of the names for what is not finite. Digits
that are too large for a number are refused unless they are negative. -/
def float? (text : List Char) : Option Value :=
  let (negative, rest) := sign text
  if rest = ['i', 'n', 'f'] then some (.float (.infinite negative))
  else if rest = ['n', 'a', 'n'] then some (.float .undefined)
  else do
    let (whole, rest) := cutBefore (fun c => c = '.' || c = 'e' || c = 'E') rest
    let whole ← decimal? whole
    let (fraction, rest) ← fraction? rest
    let exponent ← exponent? rest
    let number := ofDigits negative (whole ++ fraction) (exponent - fraction.length)
    if number = .infinite false then none else some (.float number)

/-! ## Dates and times -/

/-- Exactly so many digits at the beginning. -/
def fixed? (count : Nat) (text : List Char) : Option (Nat × List Char) :=
  let digits := text.take count
  if digits.length = count ∧ digits.all Char.isDigit then
    some (valueOf 10 digits, text.drop count)
  else none

/-- A number with leading zeros. -/
def padded (width n : Nat) : String :=
  let digits := Text.decimal n
  String.ofList (List.replicate (width - digits.length) '0' ++ digits)

/-- The number of days in a month. -/
def daysIn (year month : Nat) : Nat :=
  if month = 2 then
    if year % 4 = 0 ∧ (year % 100 ≠ 0 ∨ year % 400 = 0) then 29 else 28
  else if month ∈ [4, 6, 9, 11] then 30
  else 31

/-- One given character at the beginning. -/
def expect? (c : Char) : List Char → Option (List Char)
  | d :: rest => if d = c then some rest else none
  | [] => none

/-- A date, with its normal form. -/
def date? (text : List Char) : Option (String × List Char) := do
  let (year, rest) ← fixed? 4 text
  let (month, rest) ← fixed? 2 (← expect? '-' rest)
  let (day, rest) ← fixed? 2 (← expect? '-' rest)
  if 1 ≤ month ∧ month ≤ 12 ∧ 1 ≤ day ∧ day ≤ daysIn year month then
    some (padded 4 year ++ "-" ++ padded 2 month ++ "-" ++ padded 2 day, rest)
  else none

/-- A fraction of a second: at most nine digits count, and zeros at the end do not. -/
def secondFraction (digits : List Char) : String :=
  let kept := ((digits.take 9).reverse.dropWhile (· = '0')).reverse
  if kept.isEmpty then "" else "." ++ String.ofList kept

/-- A time, with its normal form. -/
def time? (text : List Char) : Option (String × List Char) := do
  let (hour, rest) ← fixed? 2 text
  let (minute, rest) ← fixed? 2 (← expect? ':' rest)
  let (second, rest) ← fixed? 2 (← expect? ':' rest)
  if hour ≤ 23 ∧ minute ≤ 59 ∧ second ≤ 60 then
    let clock := padded 2 hour ++ ":" ++ padded 2 minute ++ ":" ++ padded 2 second
    match rest with
    | '.' :: rest =>
      let digits := rest.takeWhile Char.isDigit
      if digits.isEmpty then none
      else some (clock ++ secondFraction digits, rest.dropWhile Char.isDigit)
    | rest => some (clock, rest)
  else none

/-- The distance to universal time, which ends the text. -/
def offset? : List Char → Option String
  | [] => some ""
  | ['Z'] | ['z'] => some "Z"
  | c :: rest =>
    if c = '+' ∨ c = '-' then do
      let (hour, rest) ← fixed? 2 rest
      let (minute, rest) ← fixed? 2 (← expect? ':' rest)
      let mark := if c = '-' ∧ 0 < 60 * hour + minute then "-" else "+"
      if hour ≤ 23 ∧ minute ≤ 59 ∧ rest.isEmpty then
        some (mark ++ padded 2 hour ++ ":" ++ padded 2 minute)
      else none
    else none

/-- A date, a time, or both with a letter or blank between them. -/
def datetime? (text : List Char) : Option Value :=
  match date? text with
  | some (date, []) => some (.datetime date)
  | some (date, c :: rest) =>
    if c = 'T' ∨ c = 't' ∨ c = ' ' then do
      let (time, rest) ← time? rest
      return .datetime (date ++ "T" ++ time ++ (← offset? rest))
    else none
  | none =>
    match time? text with
    | some (time, []) => some (.datetime time)
    | _ => none

/-! ## All scalars -/

/-- The scalar with the given text. -/
def ofText? (text : List Char) : Option Value :=
  if text = "true".toList then some (.boolean true)
  else if text = "false".toList then some (.boolean false)
  else ((datetime? text).orElse fun _ => integer? text).orElse fun _ => float? text

/-- Whether a character ends a scalar. -/
def isEnd (c : Char) : Bool := " \t\n\r#,]\x7d=".toList.contains c

/-- The text of the scalar at the beginning of a text, and what follows. One blank belongs to it
where it stands between a date and a time. -/
def cut (text : List Char) : List Char × List Char :=
  match cutBefore isEnd text with
  | (token, ' ' :: rest) =>
    match date? token, fixed? 2 rest with
    | some (_, []), some (_, ':' :: _) =>
      let (clock, after) := cutBefore isEnd rest
      (token ++ ' ' :: clock, after)
    | _, _ => (token, ' ' :: rest)
  | found => found

end ShardMesh.Toml.Scalar
