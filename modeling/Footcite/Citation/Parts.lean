import Footcite.Citation.Field
import Footcite.Citation.Names
import Footcite.Citation.Styled
import Footcite.Citation.Title
import Footcite.Desk

/-!
# Parts of citations

What several forms of citation are built of: the edition and the parenthesis it stands in, the authors, the short
title and the note that introduces it, the name of the periodical.
-/

namespace Footcite

open Styled (plain bold)

/-! ## Editions and years -/

/-- The ending of an ordinal number. -/
def ordinalEnding (n : Nat) : Text :=
  if 10 ≤ n % 100 ∧ n % 100 ≤ 20 then "th"
  else if n % 10 = 1 then "st"
  else if n % 10 = 2 ∨ n % 10 = 3 then "d"
  else "th"

/-- An edition: a number becomes an ordinal, and all else stays as it is. -/
def printedEdition (edition : Text) : Except Failure Text :=
  let e := edition.trim
  if e.isEmpty || !e.all isDigitLike then .ok e
  else match Numeral.digits? e with
    | some n => .ok (Numeral.ofNat n ++ ordinalEnding n)
    | none => .error .badNumeral

/-- The parenthesis with edition, editors, translators and year; nothing if there is none of them. -/
def publication (edition : Option Text) (editors translators : List Name) (year : Option Int) :
    Except Failure Text := do
  let edition ← match nonEmpty edition with
    | some e => do
      let label ← printedEdition e
      pure [label ++ " ed."]
    | none => pure []
  let editors := match editors with
    | [] => []
    | [n] => [Name.long [n] ++ " ed."]
    | ns => [Name.long ns ++ " eds."]
  let translators := if translators.isEmpty then [] else [Name.long translators ++ " trans."]
  let parts := Text.join ", " (edition ++ editors ++ translators)
  let body := match year with
    | none => parts
    | some y =>
      if parts.isEmpty then Numeral.ofInt y
      else if editors.isEmpty && translators.isEmpty then parts ++ " " ++ Numeral.ofInt y
      else parts ++ ", " ++ Numeral.ofInt y
  pure (if body.isEmpty then [] else " (" ++ body ++ ")")

/-- The year in parentheses. -/
def yearParenthesis (year : Option Int) : Text :=
  match year with
  | some y => " (" ++ Numeral.ofInt y ++ ")"
  | none => []

/-- Whether the volume of an article is a year: by its flag, or by having four digits. -/
def Article.numberedByYear (a : Article) : Bool :=
  a.yearAsVolume || (let v := (a.volume.getD []).trim; v.length = 4 && v.all isDigitLike)

/-! ## Parts that several forms share -/

namespace Source

/-- Text that is bold in the citation of a book. -/
def emphasised (s : Source) (t : Text) : Styled := if s.work.kind = .book then bold t else plain t

/-- The authors at the front of a full citation. -/
def leadingAuthors (s : Source) : Styled :=
  if s.authors.isEmpty then [] else s.emphasised (Name.long s.authors) ++ plain ", "

/-- The authors in a short citation; nothing if there is no name. -/
def shortAuthors (s : Source) : Styled :=
  let names := Name.short s.authors
  if names.isEmpty then [] else s.emphasised names

/-- The short title, or the title if there is none. -/
def shortName (s : Source) : Editing Styled := do
  let title ← match nonEmpty s.shortTitle with
    | some t => pure t
    | none => do
      Editing.note (.noShortTitle s.id)
      s.given .title
  pure <| match s.work with
    | .book _ => bold title
    | .case _ => plain (Text.italic title)
    | _ => plain (Text.reverseItalics title)

/-- The note of the short name for later citations. -/
def hereinafterNote (s : Source) : Editing Styled := do
  let title ← s.shortName
  let authors := s.shortAuthors
  pure (plain " [hereinafter " ++ (if authors.isEmpty then [] else authors ++ plain ", ") ++ title ++ plain "]")

/-- The abbreviated name of the periodical. -/
def periodical (s : Source) (short : Option Text) : Editing Styled := do
  let name ← s.given .container
  let abbreviation ← Editing.abbreviate name short
  pure (bold abbreviation)

/-- A volume with a space after it. -/
def volumeLead (s : Source) : Styled :=
  match nonEmpty s.volume with
  | some v => plain (v ++ " ")
  | none => []

end Source

end Footcite
