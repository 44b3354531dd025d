import Footcite.Csl.Issue
import Footcite.Report.Display
import Footcite.Resolution.Basic

/-!
# Summaries

A line or a row for each citation of a document, and the journals that were abbreviated by rule, which the user is
asked to check. The issues of a library are shown in the same two ways.
-/

namespace Footcite

/-- The label of a form. -/
def Form.label : Form → Text
  | .full _ => "full"
  | .longCase => "full (case)"
  | .short .. => "supra"
  | .shortCase => "short (case)"
  | .id .. => "id."

/-- The style of the label. -/
def Form.style : Form → Text
  | .full _ | .longCase => "bold green"
  | .short .. | .shortCase => "cyan"
  | .id .. => "magenta"

/-- A notice as the user sees it. -/
def Notice.arrow (n : Notice) : Text := n.name ++ " -> " ++ n.abbreviation

/-- A citation as a line. -/
def Draft.line (d : Draft) : Except Failure Text := do
  let number ← Numeral.write d.number
  pure (number.padLeft 4 ++ "  " ++ d.form.label.padRight 12 ++ "  " ++ d.source.id)

/-- A citation as a row of a table. -/
def Draft.row (d : Draft) : Except Failure (List Cell) := do
  let number ← Numeral.write d.number
  pure [.text number, .ofStyled d.form.label d.form.style, .text d.source.id, .ofStyled d.text []]

/-- The lines about notices. -/
def Notice.lines (notices : List Notice) : List Text :=
  if notices.isEmpty then []
  else [] :: "Journal abbreviations built from rules (check these):" :: notices.map fun n => "- " ++ n.arrow

namespace Resolution

/-- The summary as lines. -/
def summary (r : Resolution) : Except Failure (List Text) := do
  let lines ← r.citations.mapM Draft.line
  pure (lines ++ Notice.lines r.notices)

/-- The table of citations. -/
def summaryTable (r : Resolution) : Except Failure Display := do
  let rows ← r.citations.mapM Draft.row
  pure <| .table "Citations" [
    { header := "Note", justify := .right, noWrap := true },
    { header := "Form", justify := .center, noWrap := true },
    { header := "Source", noWrap := true },
    { header := "Rendered", overflow := .fold }] rows

/-- The summary as displays. -/
def summaryDisplays (r : Resolution) : Except Failure (List Display) := do
  let table ← r.summaryTable
  pure <| table :: if r.notices.isEmpty then [] else [
    .panel (Text.join ['\n'] (r.notices.map Notice.arrow)) "Journal abbreviations built from rules" "yellow"]

end Resolution

/-- The issues of a library as a display. -/
def Csl.Issue.display (issues : List Csl.Issue) : Display :=
  if issues.isEmpty then .text "Library OK" "bold green"
  else .table "Library issues" [
    { header := "Level", noWrap := true },
    { header := "Where", overflow := .fold },
    { header := "Problem", overflow := .fold }] <|
  issues.map fun i => [
    if i.fatal then .ofStyled "error" "bold red" else .ofStyled "warn" "yellow", .text i.path, .text i.message]

end Footcite
