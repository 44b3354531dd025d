import Footcite.Text.Basic

/-!
# Letters in either case

Matching without regard to case, by simple case equivalence. Beside its own capital a letter has at most a few
equivalents outside ASCII: the long s for s, the Kelvin sign for k, the dotted capital and the dotless small i for i.
-/

namespace Footcite

/-- The equivalents outside ASCII of the small letters. -/
def letterVariants : List (Char × List Char) := [('i', ['İ', 'ı']), ('k', ['\u212a']), ('s', ['ſ'])]

/-- Whether a character is the given one, or an equivalent of the given small letter. -/
def sameLetter (letter c : Char) : Bool :=
  c.toLower == letter || ((letterVariants.lookup letter).getD []).contains c

/-- A Latin letter in either case, or an equivalent of one. -/
def isLatinLetter (c : Char) : Bool := c.isAlpha || letterVariants.any (·.2.contains c)

end Footcite
