import Footcite.Document.Layout
import Footcite.Note.Body

/-!
# Documents

A document that has been read (`Document.read`): its notes in order, each with the prose before it, and the prose
after the last. Putting the notes back in with new bodies leaves the prose as it was (`Document.fill`).
-/

namespace Footcite

/-- A note at its place. -/
structure PlacedNote where
  /-- The prose since the note before. -/
  before : Text
  /-- The body as it is written. -/
  body : Text
  note : Note
  deriving Repr, DecidableEq

/-- A document with its notes read. -/
structure Document where
  placed : List PlacedNote
  /-- The prose after the last note. -/
  rest : Text
  deriving Repr, DecidableEq

namespace Document

/-- A malformed token is reported with at most so many characters of a note that is never closed. -/
def shownOfUnclosed : Nat := 40

/-- Reads the notes of a layout, numbered from the given position on. -/
def ofLayout (offset position : Int) : Layout → Except Failure Document
  | .prose t => .ok ⟨[], t⟩
  | .unclosed _ opened => .error (.malformed (opened.take shownOfUnclosed) .openNote (position + offset))
  | .note before body rest => do
    let note ← Note.read position (position + offset) body
    let d ← ofLayout offset (position + 1) rest
    .ok ⟨⟨before, body, note⟩ :: d.placed, d.rest⟩

/-- Reads a document; its notes are displayed under their positions plus the offset. -/
def read (offset : Int) (t : Text) : Except Failure Document := ofLayout offset 1 (Layout.ofText t)

/-- The notes in order. -/
def notes (d : Document) : List Note := d.placed.map (·.note)

/-- A note as it is written, with the given body. -/
def written (body : Text) : Text := "^[" ++ body ++ "]"

/-- Where the notes begin and end, counted in characters from a place on. -/
def spansFrom : Nat → List PlacedNote → List (Nat × Nat)
  | _, [] => []
  | start, p :: rest =>
    let first := start + p.before.length
    let last := first + (written p.body).length
    (first, last) :: spansFrom last rest

/-- Where the notes begin and end in the text of the document. -/
def spans (d : Document) : List (Nat × Nat) := spansFrom 0 d.placed

/-- Notes with new bodies, each after the prose before it. -/
def fillNotes : List PlacedNote → List Text → Text
  | p :: ps, body :: bodies => p.before ++ written body ++ fillNotes ps bodies
  | _, _ => []

/-- The text of the document with new bodies for its notes. -/
def fill (d : Document) (bodies : List Text) : Text := fillNotes d.placed bodies ++ d.rest

end Document

end Footcite
