import Footcite.Text.Blank

/-!
# Texts

A text is the list of its characters. The operations here are those that the rest of the library shares: trimming,
cutting into words, joining, and replacing a phrase.

A character is a Unicode scalar value. Half of a surrogate pair is none, so texts that hold one are not modelled: a
document that is UTF-8 has none, a command line is taken to have none, and a JSON text that spells one with an escape is
refused (`Json.read`).
-/

namespace Footcite

/-- A text is the list of its characters. -/
abbrev Text := List Char

/-- A literal stands for the list of its characters. -/
instance : Coe String Text := ⟨String.toList⟩

namespace Text

/-! ## Blanks at the ends -/

/-- The text without the blanks it begins with. -/
def trimStart (t : Text) : Text := t.dropWhile isBlank

/-- The text without the characters of a class that it ends with. -/
def dropEndWhile (p : Char → Bool) (t : Text) : Text := (t.reverse.dropWhile p).reverse

/-- The text without the blanks it ends with. -/
def trimEnd (t : Text) : Text := t.dropEndWhile isBlank

/-- The text without the blanks at its ends. -/
def trim (t : Text) : Text := t.trimStart.trimEnd

/-- Only blanks, or nothing. -/
def blank (t : Text) : Bool := t.all isBlank

/-- The trimmed text, unless nothing is left. -/
def trimmed? (t : Text) : Option Text := if t.trim.isEmpty then none else some t.trim

theorem length_dropWhile_le (p : Char → Bool) (t : Text) : (t.dropWhile p).length ≤ t.length :=
  (t.dropWhile_suffix p).length_le

theorem trimStart_length (t : Text) : t.trimStart.length ≤ t.length := length_dropWhile_le _ t

theorem trim_length (t : Text) : t.trim.length ≤ t.length := by
  have h := length_dropWhile_le isBlank t.trimStart.reverse
  have := trimStart_length t
  simp only [trim, trimEnd, dropEndWhile, List.length_reverse] at *
  omega

theorem trimmed?_length {t s : Text} (h : t.trimmed? = some s) : s.length ≤ t.length := by
  unfold trimmed? at h
  split at h
  · cases h
  · cases h; exact trim_length t

/-! ## Words -/

/-- The maximal runs of characters that are no blanks. -/
def words : Text → List Text
  | [] => []
  | [c] => if isBlank c then [] else [[c]]
  | c :: d :: rest =>
    if isBlank c then words (d :: rest)
    else if isBlank d then [c] :: words (d :: rest)
    else match words (d :: rest) with
      | [] => [[c]]
      | w :: ws => (c :: w) :: ws

/-- The texts one after another, with a separator between neighbours. -/
def join (separator : Text) : List Text → Text
  | [] => []
  | [t] => t
  | t :: u :: rest => t ++ separator ++ join separator (u :: rest)

/-- The words with one space between neighbours. -/
def collapse (t : Text) : Text := join [' '] t.words

/-! ## Parts -/

/-- What follows a beginning, if the text begins so. -/
def after? : (beginning : Text) → Text → Option Text
  | [], t => some t
  | _ :: _, [] => none
  | b :: bs, c :: cs => if b = c then after? bs cs else none

/-- Whether the part occurs anywhere in the text. -/
def holds (part : Text) : Text → Bool
  | [] => part.isEmpty
  | c :: rest => part.isPrefixOf (c :: rest) || holds part rest

/-- Replaces occurrences from left to right; the first argument counts the characters still to be dropped. -/
def replaceFrom (old new : Text) : Nat → Text → Text
  | _, [] => []
  | k + 1, _ :: rest => replaceFrom old new k rest
  | 0, c :: rest =>
    if old.isPrefixOf (c :: rest) then new ++ replaceFrom old new (old.length - 1) rest
    else c :: replaceFrom old new 0 rest

/-- Puts a new phrase for every occurrence of an old one, from left to right and without overlap. -/
def replace (t old new : Text) : Text := replaceFrom old new 0 t

/-- The text before the first occurrence of a character, or all of it. -/
def before (c : Char) (t : Text) : Text := t.takeWhile (· != c)

/-! ## Order and case -/

/-- The order of texts by the code points of their characters; a text comes before all others that it begins. -/
def le : Text → Text → Bool
  | [], _ => true
  | _ :: _, [] => false
  | c :: t, d :: u => if c = d then le t u else decide (c.toNat < d.toNat)

/-- The letters A to Z in lower case, all else unchanged. -/
def lower (t : Text) : Text := t.map Char.toLower

end Text

end Footcite
