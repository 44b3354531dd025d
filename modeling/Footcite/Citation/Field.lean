import Footcite.Failure

/-!
# Required fields

The fields that a form of citation can require of a source (`Source.field`). A form fails when a field that it needs
is missing or blank (`Source.given`).
-/

namespace Footcite

/-- The volume of a source. -/
def Source.volume (s : Source) : Option Text :=
  match s.work with
  | .book b => b.volume
  | .chapter c => c.volume
  | .article a => a.volume
  | .manuscript m => m.volume
  | .case c => c.volume

/-- A field that a form can require; a book has no page, and only a case has a reporter. -/
def Source.field (s : Source) : Field → Option Text
  | .title => s.title
  | .volume => s.volume
  | .container => match s.work with
    | .chapter c => c.container
    | .article a => a.container
    | .manuscript m => m.container
    | .book _ | .case _ => none
  | .reporter => match s.work with
    | .case c => c.reporter
    | _ => none
  | .page => match s.work with
    | .chapter c => c.page
    | .article a => a.page
    | .manuscript m => m.page
    | .case c => c.page
    | .book _ => none

/-- A field that must be there and not be blank. -/
def Source.given (s : Source) (f : Field) : Except Failure Text :=
  match s.field f with
  | some t => if t.blank then .error (.missingField s.id f none) else .ok t
  | none => .error (.missingField s.id f none)

end Footcite
