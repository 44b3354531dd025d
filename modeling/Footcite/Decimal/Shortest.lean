import Footcite.Decimal.Binary64

/-!
# The shortest decimal form

The decimal numeral with the fewest digits that is read back as a given binary fraction (`Binary64.shortest`). A
decimal is read back as the fraction when it lies between the two midpoints to the neighbouring fractions, the
midpoints included when the significand is even. On the grid of each number of digits only the two neighbours of the
fraction itself need to be tried; of two that are read back the nearer is taken.
-/

namespace Footcite.Binary64

/-- A positive number and the interval of the reals that are read as it, all over one denominator. -/
structure Interval where
  low : Nat
  value : Nat
  high : Nat
  denominator : Nat
  /-- Whether the ends belong to the interval. -/
  closed : Bool

/-- The interval of `significand · 2 ^ exponent`. Below a power of two the neighbour is half as far. -/
def interval (significand : Nat) (exponent : Int) : Interval :=
  let (scale, denominator) := match exponent with
    | .ofNat k => (Nat.pow 2 k, 4)
    | .negSucc k => (1, 4 * Nat.pow 2 (k + 1))
  let below := if significand = Nat.pow 2 (precision - 1) && decide (minExponent < exponent) then 1 else 2
  { low := (4 * significand - below) * scale
    value := 4 * significand * scale
    high := (4 * significand + 2) * scale
    denominator
    closed := significand % 2 = 0 }

/-- Whether `num / den` lies in the interval. -/
def Interval.holds (i : Interval) (num den : Nat) : Bool :=
  let x := num * i.denominator
  if i.closed then i.low * den ≤ x && x ≤ i.high * den else i.low * den < x && x < i.high * den

/-- The whole number of steps of `10 ^ place` next to the value that is read back, if there is one. -/
def Interval.onGrid? (i : Interval) (place : Int) : Option Nat :=
  let (up, down) : Nat × Nat := match place with
    | .ofNat k => (Nat.pow 10 k, 1)
    | .negSucc k => (1, Nat.pow 10 (k + 1))
  let floor := i.value * down / (i.denominator * up)
  let reads (n : Nat) : Bool := i.holds (n * up) down
  let twice := 2 * (i.value * down)
  let middle := (2 * floor + 1) * (i.denominator * up)
  match reads floor, reads (floor + 1) with
  | true, true => some (if twice < middle || (twice = middle && floor % 2 = 0) then floor else floor + 1)
  | true, false => some floor
  | false, true => some (floor + 1)
  | false, false => none

/-- The number of digits before the point of `num / den`, or minus the number of zeros after it. -/
def magnitude (num den : Nat) : Int :=
  if den ≤ num then (Numeral.ofNat (num / den)).length
  else
    let zeros := (Numeral.ofNat (den / num)).length
    if den ≤ num * Nat.pow 10 (zeros - 1) then 2 - (zeros : Int) else 1 - (zeros : Int)

/-- The digits and the place of the last of them, tried with one more digit at a time. -/
def Interval.search (i : Interval) (top : Int) : Nat → Nat → Nat × Int
  | 0, _ => (0, 0)
  | fuel + 1, digits =>
    match i.onGrid? (top - digits) with
    | some n => (n, top - digits)
    | none => search i top fuel (digits + 1)

/-- Drops zeros at the end of the digits. -/
def dropZeros : Nat → Nat × Int → Nat × Int
  | 0, r => r
  | fuel + 1, (n, place) => if n ≠ 0 ∧ n % 10 = 0 then dropZeros fuel (n / 10, place + 1) else (n, place)

/-- The digits of the shortest form of a positive number and the place of the last digit. -/
def shortest (significand : Nat) (exponent : Int) : Nat × Int :=
  let i := interval significand exponent
  dropZeros 20 (i.search (magnitude i.value i.denominator) 20 1)

/-- How a number of double precision is written out. -/
structure Format where
  /-- The least power of ten that is written without an exponent. -/
  leastPositional : Int
  /-- The first power of ten that is written with an exponent. -/
  firstExponential : Int
  /-- The fewest digits of an exponent. -/
  exponentDigits : Nat
  infinity : Text
  notANumber : Text

/-- The digits with a point, so that the first digit stands for `10 ^ power`. -/
def positional (digits : Text) (power : Int) : Text :=
  match power with
  | .ofNat k =>
    let padded := digits ++ List.replicate (k + 1 - digits.length) '0'
    let fraction := padded.drop (k + 1)
    padded.take (k + 1) ++ '.' :: (if fraction.isEmpty then "0" else fraction)
  | .negSucc k => "0." ++ List.replicate k '0' ++ digits

/-- The digits in exponential notation. -/
def exponential (width : Nat) (digits : Text) (power : Int) : Text :=
  let mantissa := match digits with
    | d :: e :: rest => d :: '.' :: e :: rest
    | short => short
  let size := Numeral.ofNat power.natAbs
  mantissa ++ 'e' :: (if power < 0 then '-' else '+') :: List.replicate (width - size.length) '0' ++ size

/-- Writes a number out in its shortest form. -/
def write (format : Format) : Binary64 → Text
  | .nan => format.notANumber
  | .infinite negative => (if negative then "-" else "") ++ format.infinity
  | .finite negative m e =>
    let sign : Text := if negative then "-" else ""
    if m = 0 then sign ++ "0.0"
    else
      let (n, place) := shortest m e
      let digits := Numeral.ofNat n
      let power := place + digits.length - 1
      sign ++ if format.leastPositional ≤ power && power < format.firstExponential then positional digits power
        else exponential format.exponentDigits digits power

end Footcite.Binary64
