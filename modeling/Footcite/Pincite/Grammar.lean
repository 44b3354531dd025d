import Footcite.Text.Digit
import Footcite.Text.Recogniser
import Footcite.Text.WordChar

/-!
# The pincite clause

What may follow a citation to say where in the source: an optional "at" and the placeholder or a list of locations,
each a page, a range, a section, a paragraph or a note. A bare "at" before punctuation is recognised too, so that it
can be reported.
-/

namespace Footcite.Pincite

open Recogniser

/-- Digits, with a letter at the end if there is one, up to the end of the word. -/
def numeral : Recogniser :=
  (many1 (one isDecimalDigit)).next ((one isLatinLetter).optional.next (ahead Text.endsWord))

/-- A number, or several joined by periods or colons. -/
def number : Recogniser := numeral.next (many ((oneOf ".:").next numeral))

/-- A number, or a range of two. -/
def span : Recogniser := number.next (blanks.next ((oneOf "-–—").next (blanks.next number))).optional

/-- A reference to a note or notes. -/
def noteReference : Recogniser :=
  (word "n").next ((word "n").optional.next ((word ".").next (blanks.next span)))

/-- A sign or abbreviation for a part of a work. -/
def label : Recogniser := firstOf [
  (word "§").next (word "§").optional, (word "¶").next (word "¶").optional, word "pt.", word "ch.",
  (word "para").next (word ".").optional, word "art.", word "cl."]

/-- One location: a range with an optional label and an optional note, a note, or the preamble. -/
def location : Recogniser := firstOf [
  (label.next blanks).optional.next (span.next (blanks.next noteReference).optional), noteReference, word "pmbl."]

/-- What joins two locations. -/
def joint : Recogniser := (blanks.next ((oneOf ",&").next blanks)).or (gap.next ((word "and").next gap))

/-- One or more locations. -/
def locations : Recogniser := location.next (many (joint.next location))

/-- The placeholder for a page not yet known. -/
def placeholder : Text := "tk"

/-- A clause that names a place. -/
def place : Recogniser :=
  blanks.next (((word "at").next gap).optional.next
    (((word placeholder).next (ahead Text.endsWord)).or locations))

/-- Where a bare "at" is taken for a clause: before a mark of punctuation, an opening bracket or the end. -/
def closesClause (t : Text) : Bool :=
  match t.trimStart with
  | [] => true
  | c :: _ => ".,;:([".toList.contains c

/-- An "at" without a place. -/
def bareAt : Recogniser := blanks.next ((word "at").next (ahead closesClause))

/-- A pincite clause. -/
def clause : Recogniser := place.or bareAt

/-- Takes a pincite clause off the front of a text: the clause without the blanks around it, and what follows. -/
def scan (t : Text) : Option Text × Text :=
  match clause t with
  | [] => (none, t)
  | rest :: _ =>
    let size := t.length - rest.length
    (Text.trimmed? (t.take size), t.drop size)

theorem scan_length (t : Text) : (scan t).2.length ≤ t.length := by
  unfold scan
  split <;> simp

end Footcite.Pincite
