import Footcite.Citation.Parts

/-!
# Full citations

The full citation of each kind of source, which for a case is its long form. A pincite goes between two parts of it
(`FullParts`). The required fields are looked for in a fixed order, and the first that is missing is reported.
-/

namespace Footcite

open Styled (plain bold)

/-- The parts of a full citation: what comes before the pincite, what stands around the pincite, what comes after it,
and what ends the citation. -/
structure FullParts where
  before : Styled
  pinLeft : Text
  pinRight : Text := []
  after : Text := []
  ending : Text := []

namespace Source

/-- The full citation of a book. -/
def fullBook (s : Source) (b : Book) : Editing FullParts := do
  let title ← s.given .title
  let after ← publication b.edition b.editors b.translators s.year
  pure { before := s.volumeLead ++ s.leadingAuthors ++ bold title, pinLeft := " ", after }

/-- The full citation of a chapter. -/
def fullChapter (s : Source) (c : Chapter) : Editing FullParts := do
  let title ← s.given .title
  let container ← s.given .container
  let page : Text := match nonEmpty c.page with
    | some p => " " ++ p
    | none => []
  let after ← publication c.edition c.editors c.translators s.year
  pure {
    before := s.leadingAuthors ++ plain (Text.reverseItalics title ++ ", *in* ") ++ s.volumeLead ++ bold container ++
      plain page
    pinLeft := ", ", after }

/-- The full citation of an article. -/
def fullArticle (s : Source) (a : Article) : Editing FullParts := do
  let title ← s.given .title
  let page ← s.given .page
  let journal ← s.periodical a.containerShort
  let lead := s.leadingAuthors ++ plain (Text.reverseItalics title ++ ", ")
  if a.consecutive then do
    let volume ← s.given .volume
    pure {
      before := lead ++ plain (volume ++ " ") ++ journal ++ plain (" " ++ page)
      pinLeft := ", "
      after := if a.numberedByYear then [] else yearParenthesis s.year }
  else
    let date : Text := match nonEmpty a.issueDate, s.year with
      | some d, _ => ", " ++ d
      | none, some y => ", " ++ Numeral.ofInt y
      | none, none => []
    pure { before := lead ++ journal ++ plain (date ++ ", at " ++ page), pinLeft := ", " }

/-- The full citation of a manuscript. -/
def fullManuscript (s : Source) (m : Manuscript) : Editing FullParts := do
  let title ← s.given .title
  let place ← match nonEmpty m.container with
    | some _ => do
      let journal ← s.periodical m.containerShort
      pure (plain ", " ++ s.volumeLead ++ journal)
    | none => pure []
  let lead := s.leadingAuthors ++ plain (Text.reverseItalics title) ++ place
  let ending : Text := match nonEmpty m.url with
    | some u => ", " ++ u
    | none => []
  match m.pinBasis, nonEmpty m.page with
  | .page, some page =>
    pure { before := lead ++ plain (" " ++ page), pinLeft := ", ", after := yearParenthesis s.year, ending }
  | _, _ =>
    let status : Text :=
      if m.forthcoming then
        match s.year with
        | some y => " (forthcoming " ++ Numeral.ofInt y ++ ")"
        | none => " (forthcoming)"
      else yearParenthesis s.year ++ " (unpublished manuscript)"
    pure { before := lead ++ plain status, pinLeft := " (manuscript at ", pinRight := ")", ending }

/-- The courts that a citation does not name. -/
def unnamedCourts : List Text := [
  "U.S. Supreme Court", "Supreme Court of the United States", "United States Supreme Court", "SCOTUS"]

/-- The long form of a case. -/
def longCase (s : Source) (c : Case) (pincite : Option Text) : Except Failure Styled := do
  let title ← s.given .title
  let reporter ← s.given .reporter
  let volume ← s.given .volume
  let page ← s.given .page
  let pin : Text := match pincite with
    | some p => ", " ++ p
    | none => []
  let court := (nonEmpty c.court).filter (!unnamedCourts.contains ·)
  let decision := court.toList ++ (s.year.map Numeral.ofInt).toList
  let parenthesis : Text := if decision.isEmpty then [] else " (" ++ Text.join [' '] decision ++ ")"
  pure (plain (Text.caseTitle title ++ ", " ++ volume ++ " " ++ reporter ++ " " ++ page ++ pin ++ parenthesis))

/-- The full citation put together. -/
def putTogether (s : Source) (hereinafter : Bool) (pincite : Option Text) (parts : FullParts) : Editing Styled := do
  let pin : Text := match pincite with
    | some p => parts.pinLeft ++ p ++ parts.pinRight
    | none => []
  let shortNote ← if hereinafter then s.hereinafterNote else pure []
  pure (parts.before ++ plain (pin ++ parts.after) ++ shortNote ++ plain parts.ending)

/-- The full citation of a source; a case has its long form. -/
def full (s : Source) (hereinafter : Bool) (pincite : Option Text) : Editing Styled := do
  match s.work with
  | .book b => s.putTogether hereinafter pincite (← s.fullBook b)
  | .chapter c => s.putTogether hereinafter pincite (← s.fullChapter c)
  | .article a => s.putTogether hereinafter pincite (← s.fullArticle a)
  | .manuscript m => s.putTogether hereinafter pincite (← s.fullManuscript m)
  | .case c => s.longCase c pincite

end Source

end Footcite
