import Footcite.Citation.Parts
import Footcite.Pincite.Basic

/-!
# Short citations

The short citation that points back to the note of the full one, the short form of a case, and the citation of the
source just cited.
-/

namespace Footcite

open Styled (plain)

namespace Source

/-- The short form of a case. -/
def shortCase (s : Source) (pincite : Option Text) : Editing Styled := do
  let reporter ← s.given .reporter
  let volume ← s.given .volume
  let page ← s.given .page
  let title ← s.shortName
  let place := match pincite with
    | some p => Pincite.withAt p
    | none => page
  pure (title ++ plain (", " ++ volume ++ " " ++ reporter ++ " " ++ place))

/-- Whether a pincite counts the pages of the manuscript itself. -/
def pinsManuscript (s : Source) : Bool :=
  match s.work with
  | .manuscript m => m.pinBasis = .manuscript
  | _ => false

/-- What a short citation begins with: the authors, the short title, or both when the authors do not suffice. -/
def shortHead (s : Source) (hereinafter : Bool) : Editing Styled := do
  let authors := s.shortAuthors
  if authors.isEmpty then s.shortName
  else if hereinafter then do
    let title ← s.shortName
    pure (authors ++ plain ", " ++ title)
  else pure authors

/-- A short citation that points back to a note; a case has its short form. -/
def short (s : Source) (note : Int) (hereinafter : Bool) (pincite : Option Text) : Editing Styled := do
  if s.isCase then s.shortCase pincite
  else
    let head ← s.shortHead hereinafter
    let number ← Numeral.write note
    let place : Text := match pincite with
      | none => []
      | some p => if s.pinsManuscript then " (manuscript at " ++ p ++ ")" else ", " ++ Pincite.withAt p
    pure (head ++ plain (", *supra* note " ++ number ++ place))

/-- The citation of the source just cited. -/
def idem (capitalized pinciteRepeated : Bool) (pincite : Option Text) : Styled :=
  let place : Text := match pincite with
    | some p => if pinciteRepeated then [] else " " ++ Pincite.withAt p
    | none => []
  plain ((if capitalized then "*Id.*" else "*id.*") ++ place)

end Source

end Footcite
