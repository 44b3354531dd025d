import Footcite.Text.Numeral

/-!
# Binary fractions of double precision

A finite number is a signed significand of at most 53 bits times a power of two (`Binary64.finite`). A decimal
fraction is read as the nearest of them, a tie going to the even significand (`Binary64.ofDecimal`); all is done in
exact arithmetic on natural numbers.
-/

namespace Footcite

/-- A number of double precision. -/
inductive Binary64
  /-- The number `± significand · 2 ^ exponent`. -/
  | finite (negative : Bool) (significand : Nat) (exponent : Int)
  | infinite (negative : Bool)
  | nan
  deriving Repr, DecidableEq

namespace Binary64

/-- The bits of a significand. -/
def precision : Nat := 53

/-- The exponent of the least numbers. -/
def minExponent : Int := -1074

/-- The exponent of the greatest numbers. -/
def maxExponent : Int := 971

/-- The quotient rounded to the nearest whole number, a tie going to the even one. -/
def roundDiv (num den : Nat) : Nat :=
  let q := num / den
  let r := num % den
  if 2 * r < den then q else if den < 2 * r then q + 1 else if q % 2 = 0 then q else q + 1

/-- The quotient `num / den` divided by `2 ^ e`, as a pair of numbers. -/
def scaled (num den : Nat) (e : Int) : Nat × Nat :=
  match e with
  | .ofNat k => (num, den * Nat.pow 2 k)
  | .negSucc k => (num * Nat.pow 2 (k + 1), den)

/-- The number nearest to the quotient of two natural numbers, the second not zero. -/
def ofQuotient (negative : Bool) (num den : Nat) : Binary64 :=
  if num = 0 then .finite negative 0 minExponent
  else
    let guess : Int := (num.log2 : Int) - (den.log2 : Int) - precision
    let fits (e : Int) : Bool := let (n, d) := scaled num den e; decide (n < d * Nat.pow 2 precision)
    let exponent := max minExponent (if fits guess then guess else guess + 1)
    let (n, d) := scaled num den exponent
    let significand := roundDiv n d
    if significand < Nat.pow 2 precision then
      if maxExponent < exponent then .infinite negative else .finite negative significand exponent
    else if maxExponent < exponent + 1 then .infinite negative
    else .finite negative (significand / 2) (exponent + 1)

/-- The number nearest to `digits · 10 ^ exponent`. An exponent far out of range is cut off first, for the answer does
not depend on how far it is out. -/
def ofDecimal (negative : Bool) (digits : Nat) (exponent : Int) : Binary64 :=
  let length : Int := (Numeral.ofNat digits).length
  if digits = 0 then .finite negative 0 minExponent
  else if 310 < exponent + length then .infinite negative
  else if exponent + length < -330 then .finite negative 0 minExponent
  else match exponent with
    | .ofNat k => ofQuotient negative (digits * Nat.pow 10 k) 1
    | .negSucc k => ofQuotient negative digits (Nat.pow 10 (k + 1))

/-- Whether the number is zero. -/
def isZero : Binary64 → Bool
  | .finite _ m _ => m = 0
  | _ => false

/-- The whole part of a finite number. -/
def truncate? : Binary64 → Option Int
  | .finite negative m e =>
    let whole : Nat := match e with
      | .ofNat k => m * Nat.pow 2 k
      | .negSucc k => m / Nat.pow 2 (k + 1)
    some (if negative then -(whole : Int) else whole)
  | _ => none

end Binary64

end Footcite
