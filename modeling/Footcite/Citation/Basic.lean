import Footcite.Citation.Form
import Footcite.Citation.Full
import Footcite.Citation.Short

/-!
# Citations

`Source.cite` writes a citation of a source in a given form, with a pincite and a parenthetical if there are any.
`Source.citeStyled` gives the spans that it is made of.
-/

namespace Footcite

open Styled (plain)

namespace Source

/-- The citation in a form, without its parenthetical. -/
def inForm (s : Source) (form : Form) (pincite : Option Text) : Editing Styled := do
  match form, s.work with
  | .full h, _ => s.full h pincite
  | .short note h, _ => s.short note h pincite
  | .id capitalized repeated, _ => pure (idem capitalized repeated pincite)
  | .longCase, .case c => s.longCase c pincite
  | .shortCase, .case _ => s.shortCase pincite
  | .longCase, _ | .shortCase, _ => throw (.notACase s.id s.work.kind)

/-- The parenthetical after a citation; nothing for an empty one. -/
def parenthesis (parenthetical : Option Text) : Styled :=
  match nonEmpty parenthetical with
  | some p => plain (" (" ++ p ++ ")")
  | none => []

/-- The spans of a citation in a form, with its pincite and parenthetical. -/
def citeStyled (s : Source) (form : Form) (pincite parenthetical : Option Text) : Editing Styled := do
  let pin ← Pincite.clean s.id pincite
  let citation ← s.inForm form pin
  pure (citation ++ parenthesis parenthetical)

/-- A citation in Markdown. -/
def cite (s : Source) (form : Form) (pincite parenthetical : Option Text) : Editing Text :=
  Styled.markdown <$> s.citeStyled form pincite parenthetical

end Source

end Footcite
