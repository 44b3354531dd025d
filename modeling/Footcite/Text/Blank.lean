import Footcite.Text.Ranges

/-!
# Blanks

The characters that separate words, in the sense of Unicode and of the information separators of ASCII.
-/

namespace Footcite

/-- The code points of the blanks. -/
def blankRanges : Ranges := [
  (0x9, 0xd), (0x1c, 0x20), (0x85, 0x85), (0xa0, 0xa0), (0x1680, 0x1680), (0x2000, 0x200a), (0x2028, 0x2029),
  (0x202f, 0x202f), (0x205f, 0x205f), (0x3000, 0x3000)]

/-- A space, tab, line break or other blank. -/
def isBlank (c : Char) : Bool := blankRanges.holds c.toNat

end Footcite
