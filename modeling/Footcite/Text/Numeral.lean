import Footcite.Text.Basic
import Footcite.Text.Digit

/-!
# Numerals

Writing whole numbers in decimal (`Numeral.ofInt`), and reading them: a bare run of digits (`Numeral.digits?`), or a
numeral as people type it, with a sign, blanks around it and single underscores between digits (`Numeral.read?`). A
numeral that is read has at most `Numeral.maxDigits` digits, and so has one that is written where numbers may grow
(`Numeral.fits`).
-/

namespace Footcite.Numeral

/-- The decimal digits of a natural number. -/
def ofNat (n : Nat) : Text := Nat.toDigits 10 n

/-- The decimal numeral of a whole number, with a minus sign when it is negative. -/
def ofInt : Int → Text
  | .ofNat n => ofNat n
  | .negSucc n => '-' :: ofNat (n + 1)

/-- A numeral has at most this many digits. -/
def maxDigits : Nat := 4300

/-- Whether the numeral of a number has no more digits than a numeral may have. -/
def fits (n : Int) : Bool := (ofNat n.natAbs).length ≤ maxDigits

theorem length_ofNat_le_iff {n k : Nat} (h : 0 < k) : (ofNat n).length ≤ k ↔ n < Nat.pow 10 k :=
  Nat.length_toDigits_le_iff (by decide) h

/-- The numbers that fit are those below a power of ten, whatever their sign. -/
theorem fits_iff {n : Int} : fits n = true ↔ n.natAbs < Nat.pow 10 maxDigits :=
  decide_eq_true_iff.trans (length_ofNat_le_iff (by decide))

/-- The number that digits stand for, most significant first. -/
def ofDigits (digits : List Nat) : Nat := digits.foldl (10 * · + ·) 0

/-- Reads a run of decimal digits of any script; refuses the empty run and one that is too long. -/
def digits? (t : Text) : Option Nat :=
  if t.isEmpty || maxDigits < t.length then none else (t.mapM digitValue?).map ofDigits

/-- Digits with single underscores between them, the underscores removed. -/
def ungroup? : Text → Option Text
  | [] => some []
  | ['_'] => none
  | '_' :: _ :: _ => none
  | c :: '_' :: d :: rest => if d = '_' then none else (ungroup? (d :: rest)).map (c :: ·)
  | c :: rest => (ungroup? rest).map (c :: ·)

/-- The blanks that may stand around a numeral: all but the information separators of ASCII. -/
def padding (c : Char) : Bool := isBlank c && !(0x1c ≤ c.toNat && c.toNat < 0x20)

/-- Reads a numeral with an optional sign, padding around it and single underscores between its digits. -/
def read? (t : Text) : Option Int :=
  match Text.dropEndWhile padding (t.dropWhile padding) with
  | '-' :: rest => ((ungroup? rest).bind digits?).map fun n => -(n : Int)
  | '+' :: rest => ((ungroup? rest).bind digits?).map Int.ofNat
  | rest => ((ungroup? rest).bind digits?).map Int.ofNat

end Footcite.Numeral
