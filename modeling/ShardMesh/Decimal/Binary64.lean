/-!
# Binary floating-point numbers

A finite, non-negative number with 53 significant bits is a mantissa times a power of two; here it
is kept as just that, in exact arithmetic. Every rational number has a nearest one, of two equally
near the one with an even mantissa; numbers too large for the exponent have none.
-/

namespace ShardMesh

/-- The number `mantissa · 2 ^ exponent`. -/
structure Binary64 where
  mantissa : Nat
  exponent : Int
  deriving DecidableEq, Repr, Inhabited

/-- The integer nearest to a quotient, of two the even one. -/
def roundQuotient (num den : Nat) : Nat :=
  let low := num / den
  let rest := 2 * (num % den)
  if rest < den then low
  else if den < rest then low + 1
  else low + low % 2

namespace Binary64

/-- The number of significant bits. -/
def precision : Nat := 53

/-- The exponent of the finest numbers. -/
def minExponent : Int := -1074

/-- The exponent of the coarsest numbers. -/
def maxExponent : Int := 971

/-- The number as a numerator over a denominator that is a power of two. -/
def toQuotient (x : Binary64) : Nat × Nat :=
  (x.mantissa * Nat.pow 2 x.exponent.toNat, Nat.pow 2 (-x.exponent).toNat)

/-- Scales a quotient by a power of two. -/
def scale (num den : Nat) (exponent : Int) : Nat × Nat :=
  (num * Nat.pow 2 exponent.toNat, den * Nat.pow 2 (-exponent).toNat)

/-- The largest power of two that does not exceed a positive quotient. -/
def log2Quotient (num den : Nat) : Int :=
  let guess : Int := (Nat.log2 num : Int) - Nat.log2 den
  let (a, b) := scale num den (-guess)
  if a < b then guess - 1 else guess

/-- The number nearest to a quotient, unless the quotient is too large. -/
def nearest? (num den : Nat) : Option Binary64 :=
  if num = 0 then some ⟨0, minExponent⟩
  else
    let exponent := max minExponent (log2Quotient num den + 1 - precision)
    let (a, b) := scale num den (-exponent)
    let mantissa := roundQuotient a b
    let x : Binary64 :=
      if mantissa = Nat.pow 2 precision then ⟨Nat.pow 2 (precision - 1), exponent + 1⟩
      else ⟨mantissa, exponent⟩
    if maxExponent < x.exponent then none else some x

/-- The number nearest to a quotient; for one too large, the largest number. -/
def ofQuotient (num den : Nat) : Binary64 :=
  (nearest? num den).getD ⟨Nat.pow 2 precision - 1, maxExponent⟩

/-- The sum, rounded. -/
def add (x y : Binary64) : Binary64 :=
  let (a, b) := x.toQuotient
  let (c, d) := y.toQuotient
  ofQuotient (a * d + c * b) (b * d)

/-- The product, rounded. -/
def mul (x y : Binary64) : Binary64 :=
  let (a, b) := x.toQuotient
  let (c, d) := y.toQuotient
  ofQuotient (a * c) (b * d)

end Binary64
end ShardMesh
