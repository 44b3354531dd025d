import Footcite.Failure
import Footcite.Pincite.Grammar

/-!
# Pincites

A pincite as a citation prints it: a clause without the blanks around it and without an "at" at its beginning
(`Pincite.normalize`). A clause that is nothing but "at" names no place and is refused (`Pincite.clean`). A citation
writes "at" before a pincite of its own accord, unless the pincite begins with a section or paragraph sign.
-/

namespace Footcite.Pincite

/-- An "at" with blanks after it. -/
def openingAt : Recogniser := (Recogniser.word "at").next Recogniser.gap

/-- The text without an "at" at its beginning. -/
def dropAt (t : Text) : Text := (openingAt t).head?.getD t

/-- A clause without the blanks around it and without a leading "at"; nothing for an empty clause. -/
def normalize (clause : Text) : Option Text := clause.trimmed?.map fun t => (dropAt t).trim

/-- Normalises the pincite of a source; a clause that is only "at" is refused. -/
def clean (id : Text) : Option Text → Except Failure (Option Text)
  | none => .ok none
  | some clause =>
    if clause.trim.lower = "at" then .error (.emptyPincite clause.trim id none) else .ok (normalize clause)

/-- Whether "at" is written before the pincite. -/
def takesAt (pincite : Text) : Bool :=
  match pincite with
  | c :: _ => c != '§' && c != '¶'
  | [] => true

/-- The pincite with the "at" that it takes. -/
def withAt (pincite : Text) : Text :=
  if pincite = placeholder || takesAt pincite then "at " ++ pincite else pincite

end Footcite.Pincite
