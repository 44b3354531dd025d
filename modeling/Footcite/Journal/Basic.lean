import Footcite.Journal.ByRule
import Footcite.Text.CaseFold

/-!
# Journals

How the name of a journal is abbreviated: by the short name that the source itself gives, by the user's table, by the
bundled table, or by rule (`Journals.resolve`). Names are compared without regard to case and to runs of blanks. Each
answer is kept, so that a name is answered in one way throughout, and a name abbreviated by rule is noted once.
-/

namespace Footcite

/-- Where an abbreviation comes from. -/
inductive Provenance
  | record
  | user
  | bundled
  | rules
  deriving Repr, DecidableEq

/-- An abbreviation and where it comes from. -/
structure Abbreviation where
  text : Text
  provenance : Provenance
  deriving Repr, DecidableEq

/-- A name that was abbreviated by rule. -/
structure Notice where
  name : Text
  abbreviation : Text
  deriving Repr, DecidableEq

/-- The tables of abbreviations, the answers given, and the names abbreviated by rule in the order of their first use.
-/
structure Journals where
  /-- The user's table; its keys are trimmed and case-folded. -/
  user : Table Text
  /-- The bundled table; its keys are trimmed and case-folded. -/
  bundled : Table Text
  answers : Table Abbreviation := []
  notices : List Notice := []
  deriving Repr

namespace Journals

/-- A table under the keys by which it is searched. -/
def keyed (t : Table Text) : Table Text := Table.ofEntries (t.map fun (name, short) => (name.trim.fold, short))

/-- The journals of two tables, nothing asked yet. -/
def ofTables (user bundled : Table Text) : Journals := ⟨keyed user, keyed bundled, [], []⟩

/-- The abbreviation of a name whose blanks are collapsed. -/
def lookup (j : Journals) (name : Text) : Abbreviation :=
  match j.user.get? name.fold, j.bundled.get? name.fold with
  | some short, _ => ⟨short, .user⟩
  | none, some short => ⟨short, .bundled⟩
  | none, none => ⟨name.abbreviate, .rules⟩

/-- Looks up a name and keeps the answer; one found by rule is noted. -/
def answer (j : Journals) (name : Text) : Abbreviation × Journals :=
  match j.answers.get? name with
  | some a => (a, j)
  | none =>
    let a := j.lookup name
    let notices := if a.provenance = .rules then j.notices ++ [⟨name, a.text⟩] else j.notices
    (a, { j with answers := j.answers.set name a, notices })

/-- The abbreviation of a name, the short name of the source itself going before all tables, and the journals after.
-/
def resolve (j : Journals) (name : Text) (override : Option Text) : Abbreviation × Journals :=
  match override.bind Text.trimmed? with
  | some short => (⟨short, .record⟩, j)
  | none => j.answer name.collapse

end Journals

end Footcite
