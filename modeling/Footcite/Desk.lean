import Footcite.Failure
import Footcite.Journal.Basic
import Footcite.Log

/-!
# The desk

What lies at hand while citations are written and outlasts a document: the journals, with the answers they have given,
and the log. Work at the desk may fail, and what was done up to then stays done (`Editing`).
-/

namespace Footcite

/-- The journals and the log. -/
structure Desk where
  journals : Journals
  log : List Event := []
  deriving Repr

/-- Work at a desk that may fail. -/
abbrev Editing := ExceptT Failure (StateM Desk)

namespace Editing

/-- Puts an event into the log. -/
def note (e : Event) : Editing Unit := modify fun d => { d with log := d.log ++ [e] }

/-- The abbreviation of a journal; a name that is abbreviated by rule for the first time goes into the log. -/
def abbreviate (name : Text) (override : Option Text) : Editing Text := do
  let d ← get
  let (a, journals) := d.journals.resolve name override
  let new := (journals.notices.drop d.journals.notices.length).map fun n => Event.ruleAbbreviated n.name n.abbreviation
  set { d with journals, log := d.log ++ new }
  pure a.text

end Editing

end Footcite
