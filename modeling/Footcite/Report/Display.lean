import Footcite.Text.Basic

/-!
# Displays

What is shown on a terminal beside plain lines: tables, panels and styled texts. A terminal may lay them out as it
likes; `Display.layout` is a plain layout without styles, in which nothing is wrapped.
-/

namespace Footcite

/-- The text with spaces before it up to a width. -/
def Text.padLeft (width : Nat) (t : Text) : Text := List.replicate (width - t.length) ' ' ++ t

/-- The text with spaces after it up to a width. -/
def Text.padRight (width : Nat) (t : Text) : Text := t ++ List.replicate (width - t.length) ' '

/-- The characters that a terminal obeys instead of showing them: bell, backspace, vertical tab, form feed and carriage
return. -/
def isTerminalControl (c : Char) : Bool := c = '\x07' || c = '\x08' || c = '\x0b' || c = '\x0c' || c = '\r'

/-- The text without the characters that a terminal obeys. -/
def Text.shown (t : Text) : Text := t.filter fun c => !isTerminalControl c

/-- A cell of a table. -/
inductive Cell
  | text (t : Text)
  | styled (t style : Text)
  deriving Repr, DecidableEq

/-- A cell with a style. Its text is laid out with it, so it holds nothing that a terminal obeys. -/
def Cell.ofStyled (t style : Text) : Cell := .styled t.shown style

/-- The text of a cell. -/
def Cell.plain : Cell → Text
  | text t | styled t _ => t

/-- On which side a column is set. -/
inductive Justify
  | left
  | center
  | right
  deriving Repr, DecidableEq

/-- Fills a text up to a width on the other side. -/
def Justify.fill (width : Nat) (t : Text) : Justify → Text
  | .left => t.padRight width
  | .right => t.padLeft width
  | .center => (t.padLeft (t.length + (width - t.length) / 2)).padRight width

/-- What becomes of a cell that is too wide: it ends in an ellipsis, or goes on in a further line. -/
inductive Overflow
  | ellipsis
  | fold
  deriving Repr, DecidableEq

/-- A column of a table. -/
structure Column where
  header : Text
  justify : Justify := .left
  overflow : Overflow := .ellipsis
  noWrap : Bool := false
  deriving Repr, DecidableEq

/-- Something to be shown. -/
inductive Display
  | table (title : Text) (columns : List Column) (rows : List (List Cell))
  | panel (body title border : Text)
  | text (t style : Text)
  deriving Repr, DecidableEq

namespace Display

/-- The width of the column at a place. -/
def width (rows : List (List Text)) (place : Nat) : Nat :=
  (rows.map fun r => (r.getD place []).length).foldl max 0

/-- Rows with their cells filled up to the widths of the columns. -/
def fillRows (columns : List Column) (rows : List (List Text)) : List Text :=
  rows.map fun r =>
    (Text.join "  " ((columns.zip r).zipIdx.map fun ((c, t), i) => c.justify.fill (width rows i) t)).trimEnd

/-- The lines of a display. -/
def lines : Display → List Text
  | table title columns rows =>
    title :: fillRows columns (columns.map (·.header) :: rows.map fun r => r.map Cell.plain)
  | panel body title _ => [title, body]
  | text t _ => [t]

/-- A display in plain lines. -/
def layout (d : Display) : Text := d.lines.flatMap (· ++ ['\n'])

end Display

end Footcite
