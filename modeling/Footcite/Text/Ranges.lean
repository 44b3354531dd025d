/-!
# Ranges of code points

A class of characters is given by the ranges of its code points in ascending order, so that a search stops at the
first range that begins above the code point.
-/

namespace Footcite

/-- Inclusive ranges of code points in ascending order. -/
abbrev Ranges := List (Nat × Nat)

/-- Whether a code point lies in one of the ranges. -/
def Ranges.holds : Ranges → Nat → Bool
  | [], _ => false
  | (lo, hi) :: rest, n => if n < lo then false else if n ≤ hi then true else Ranges.holds rest n

end Footcite
