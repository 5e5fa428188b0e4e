import ShardMesh.Decimal.Binary64
import ShardMesh.Text.Number

/-!
# The shortest decimal that reads back

The real numbers that round to a given binary number form an interval; its ends belong to it if
the mantissa is even. The shortest decimal is found by looking at coarser grids first: on the grid
of one, two, … digits the two neighbours of the number are tried, and of two that lie in the
interval the nearer one is taken, or the larger one if both are equally near.
-/

namespace ShardMesh.Decimal

/-- Digits without leading zero, and the exponent of the last one: `digits · 10 ^ exponent`. -/
structure Shortest where
  digits : Nat
  exponent : Int
  deriving DecidableEq, Repr, Inhabited

/-- The quotient `digits · 10 ^ exponent`. -/
def tenfold (digits : Nat) (exponent : Int) : Nat × Nat :=
  (digits * Nat.pow 10 exponent.toNat, Nat.pow 10 (-exponent).toNat)

/-- Whether a decimal lies in the interval of the reals that round to the number. With the unit
in the last place as measure, the interval reaches half a unit up, and down half a unit or, below
a power of two, a quarter. -/
def readsBack (x : Binary64) (digits : Nat) (exponent : Int) : Bool :=
  let (num, den) := tenfold digits exponent
  -- everything is compared in quarters of a unit
  let (a, b) := Binary64.scale (4 * num) den (-x.exponent)
  let middle := 4 * x.mantissa
  let down := if x.mantissa = Nat.pow 2 (Binary64.precision - 1) ∧ x.exponent ≠ Binary64.minExponent
    then 1 else 2
  let low := (middle - down) * b
  let high := (middle + 2) * b
  if x.mantissa % 2 = 0 then low ≤ a && a ≤ high else low < a && a < high

/-- The largest power of ten that does not exceed a positive quotient, found by counting down from
a power that does. -/
def log10Quotient (num den : Nat) : (fuel : Nat) → (guess : Int) → Int
  | 0, guess => guess
  | fuel + 1, guess =>
    let (a, b) := tenfold den guess
    if a ≤ num * b then guess else log10Quotient num den fuel (guess - 1)

/-- The decimal with a given number of digits that reads back, if there is one, and else the same
with more digits. -/
def search (x : Binary64) (top : Int) : (fuel : Nat) → (count : Nat) → Shortest
  | 0, _ => ⟨x.mantissa, 0⟩
  | fuel + 1, count =>
    let exponent := top + 1 - count
    let (num, den) := x.toQuotient
    let (a, b) := tenfold den exponent
    let below := num * b / a
    let rest := num * b % a
    match readsBack x below exponent && below ≠ 0, readsBack x (below + 1) exponent with
    | true, true => if 2 * rest < a then ⟨below, exponent⟩ else ⟨below + 1, exponent⟩
    | true, false => ⟨below, exponent⟩
    | false, true => ⟨below + 1, exponent⟩
    | false, false => search x top fuel (count + 1)

/-- The shortest decimal of a positive number. -/
def shortest (x : Binary64) : Shortest :=
  let (num, den) := x.toQuotient
  -- the power of two gives the power of ten to within one place
  let guess := (Binary64.log2Quotient num den + 1) * 30103 / 100000 + 1
  search x (log10Quotient num den 8 guess) 17 1

/-- A decimal in positional notation, with at least one digit on either side of the point. -/
def positional (d : Shortest) : String :=
  let digits := Text.decimal d.digits
  if 0 ≤ d.exponent then
    String.ofList (digits ++ List.replicate d.exponent.toNat '0') ++ ".0"
  else
    let places := (-d.exponent).toNat
    let padded := List.replicate (places + 1 - digits.length) '0' ++ digits
    -- zeros that end the fraction are no part of it
    let fraction := ((padded.drop (padded.length - places)).reverse.dropWhile (· = '0')).reverse
    String.ofList (padded.take (padded.length - places)) ++ "." ++
      (if fraction.isEmpty then "0" else String.ofList fraction)

/-- A non-negative number in positional notation. -/
def text (x : Binary64) : String := if x.mantissa = 0 then "0.0" else positional (shortest x)

end ShardMesh.Decimal
