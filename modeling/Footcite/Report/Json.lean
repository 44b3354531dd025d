import Footcite.Json.Printer
import Footcite.Resolution.Basic

/-!
# The report of a resolution

`Resolution.report` gives all citations, notes and cross-references as one JSON value: citations and notes in the
order of the document, the tables of sources, cross-references and journals in the order of their keys.
-/

namespace Footcite

/-- The version of the layout of the report. -/
def reportVersion : Text := "1.0"

/-- A value, if all numbers in it can be written. -/
def Json.checked (v : Json) : Except Failure Json := if v.writable then .ok v else .error .longNumeral

/-- A text, or null. -/
def Json.ofText? (t : Option Text) : Json := t.elim .null .string

/-- A form with its particulars. -/
def Form.report (f : Form) : Json :=
  .object <| ("kind", .string f.kind) :: match f with
    | .full h => [("hereinafter", .bool h)]
    | .short note h => [("note", .int note), ("hereinafter", .bool h)]
    | .id capitalized repeated => [("capitalized", .bool capitalized), ("pincite_repeated", .bool repeated)]
    | .shortCase | .longCase => []

/-- A citation in the report. -/
def Draft.report (d : Draft) : Json := .object [
  ("footnote", .int d.number), ("position", .int d.position), ("source_id", .string d.source.id),
  ("pincite", Json.ofText? d.pincite), ("decision", d.form.report), ("text", .string d.text)]

/-- A note in the report. -/
def SettledNote.report (n : SettledNote) : Json := .object [
  ("footnote", .int n.note.number), ("position", .int n.note.position), ("text", .string n.text)]

/-- Where a source is cited: the displayed number of the first note, and those of all notes without repetition. -/
structure Occurrences where
  first : Int
  notes : List Int
  deriving Repr, DecidableEq

/-- Enters a citation into the table of sources. -/
def Occurrences.enter (t : Table Occurrences) (d : Draft) : Table Occurrences :=
  let o := (t.get? d.source.id).getD ⟨d.number, []⟩
  t.set d.source.id { o with notes := if o.notes.contains d.number then o.notes else o.notes ++ [d.number] }

/-- Where each source is cited, in the order of first citation. -/
def Resolution.occurrences (r : Resolution) : Table Occurrences := r.citations.foldl Occurrences.enter []

/-- The occurrences of a source in the report. -/
def Occurrences.report (o : Occurrences) : Json := .object [
  ("first_footnote", .int o.first), ("footnotes", .array (o.notes.map .int))]

/-- A notice in the report. -/
def Notice.report (n : Notice) : Json := .object [
  ("journal", .string n.name), ("abbreviation", .string n.abbreviation)]

/-- The report of a resolution, with the paths of the document and the library and the offset of the displayed
numbers; an offset that was given no number is an empty array. -/
def Resolution.report (r : Resolution) (document library : Option Text) (offset : Option Int) : Json := .object [
  ("schema_version", .string reportVersion),
  ("input", .object [
    ("document", Json.ofText? document), ("library", Json.ofText? library), ("offset", offset.elim (.array []) .int)]),
  ("footnotes", .array (r.settled.map SettledNote.report)),
  ("citations", .array (r.citations.map Draft.report)),
  ("sources", .object (r.occurrences.sorted.mapValues Occurrences.report)),
  ("crossrefs", .object (r.crossrefs.sorted.mapValues .int)),
  ("journal_notices", .array ((r.notices.mergeSort fun a b => Text.le a.name b.name).map Notice.report))]

end Footcite
