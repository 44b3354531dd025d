import Footcite.Note.Segment
import Footcite.Text.Recogniser

/-!
# Signals and the beginning of a sentence

A citation opens a sentence at the start of a note and after a full stop, a question mark or an exclamation mark. An
introductory signal before it, such as *see* or *cf.*, keeps it inside the sentence, also when the signal itself ends
in a full stop.
-/

namespace Footcite

/-- The introductory signals. -/
def signals : List Text := [
  "see generally, e.g.", "see generally", "but cf., e.g.", "but cf.", "but see, e.g.", "but see", "contra", "compare",
  "with", "cf., e.g.", "cf.", "see also, e.g.", "see also", "see, e.g.", "see", "accord", "e.g."]

namespace Text

open Recogniser in
/-- A signal, perhaps emphasised with asterisks, a comma or none, and blanks. -/
def signal : Recogniser :=
  (many (oneOf "*")).next ((firstOf (signals.map word)).next
    ((many (oneOf "*")).next ((oneOf ",").optional.next blanks)))

/-- The texts after each blank and each opening parenthesis. -/
def afterGaps : Text → List Text
  | [] => []
  | c :: rest => if isBlank c || c = '(' then rest :: afterGaps rest else afterGaps rest

/-- Whether the text ends with a signal that begins it or follows a blank or an opening parenthesis. -/
def endsInSignal (t : Text) : Bool := (t :: afterGaps t).any fun u => (signal u).any List.isEmpty

/-- Marks that may stand after the end of a sentence: emphasis, quotation marks and a parenthesis. -/
def isCloser (c : Char) : Bool := "*_\"')”’".toList.contains c

/-- The marks that end a sentence. -/
def endsSentence (c : Char) : Bool := c = '.' || c = '!' || c = '?'

/-- Whether a citation after this text, which ends in no blank, opens a sentence. -/
def closesSentence (t : Text) : Bool :=
  !t.endsInSignal && ((t.dropEndWhile isCloser).getLast?.map endsSentence).getD false

end Text

/-- Whether a citation opens a sentence after these segments, the nearest first. Breakers, anchors and blank texts are
passed over. -/
def Segment.opensSentenceAfter : List Segment → Bool
  | [] => true
  | .breaker _ :: rest | .anchor _ :: rest => opensSentenceAfter rest
  | .text t :: rest => if t.trimEnd.isEmpty then opensSentenceAfter rest else t.trimEnd.closesSentence
  | .mention .. :: _ | .use _ :: _ => false

/-- Whether a citation opens a sentence after these segments. -/
def Segment.opensSentence (before : List Segment) : Bool := opensSentenceAfter before.reverse

end Footcite
