import Footcite.Text.Basic

/-!
# Forms of citation

The form that a citation takes at its place: the full form, the short one that points back to the note of the full form,
*id.* for a source just cited, and the long and short forms of cases.
-/

namespace Footcite

/-- A form of citation. -/
inductive Form
  /-- The full citation, with a short name for later ones when the flag is set. -/
  | full (hereinafter : Bool)
  /-- A reference back to the note of the full citation. -/
  | short (note : Int) (hereinafter : Bool)
  /-- The same source as just before; the pincite is left out when it is the same too. -/
  | id (capitalized pinciteRepeated : Bool)
  | shortCase
  | longCase
  deriving Repr, DecidableEq

/-- The name of a form in a report. -/
def Form.kind : Form → Text
  | .full _ => "full"
  | .short .. => "short"
  | .id .. => "id"
  | .shortCase => "short_case"
  | .longCase => "long_case"

/-- The flag of a full or short form. -/
def Form.hereinafter? : Form → Option Bool
  | .full h | .short _ h => some h
  | _ => none

/-- Sets the flag of a full or short form. -/
def Form.withHereinafter (flag : Bool) : Form → Form
  | .full _ => .full flag
  | .short n _ => .short n flag
  | f => f

end Footcite
