import Footcite.Source.Basic
import Footcite.Text.CaseFold

/-!
# Names of authors

The full name and the surname of a person, lists of them in a full and in a short citation, and the key by which two
sources are taken to be by one author (`Source.authorKey`).
-/

namespace Footcite

/-- The text of a field that is given and not empty. -/
def nonEmpty (field : Option Text) : Option Text := field.filter (!·.isEmpty)

namespace Name

/-- Suffixes that are set off by a comma. -/
def commaSuffixes : List Text := ["Jr.", "Sr."]

/-- The full name. -/
def full (n : Name) : Text :=
  match nonEmpty n.literal with
  | some l => l
  | none =>
    let name := Text.join [' '] ([n.given, n.particle, n.family].filterMap nonEmpty)
    match nonEmpty n.suffix with
    | some s => name ++ (if commaSuffixes.contains s then ", " else " ") ++ s
    | none => name

/-- The surname with its particle. -/
def surname (n : Name) : Text :=
  match nonEmpty n.literal with
  | some l => l
  | none => Text.join [' '] ([n.particle, n.family].filterMap nonEmpty)

/-- Names with an ampersand before the last and commas before that. -/
def list : List Text → Text
  | [] => []
  | [n] => n
  | names => Text.join ", " names.dropLast ++ " & " ++ names.getLast?.getD []

/-- The authors in a full citation. -/
def long (names : List Name) : Text := list (names.map full)

/-- The authors in a short citation. -/
def short : List Name → Text
  | [] => []
  | [n] => n.surname
  | [n, m] => n.surname ++ " & " ++ m.surname
  | n :: _ => n.surname ++ " et al."

end Name

/-- The surname of the first author, without regard to case and to runs of blanks. A case has no authors. -/
def Source.authorKey (s : Source) : Option Text :=
  if s.isCase then none else s.authors.head?.map fun n => n.surname.collapse.fold

end Footcite
