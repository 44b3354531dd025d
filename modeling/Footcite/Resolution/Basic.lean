import Footcite.Citation.SmallCaps
import Footcite.Document.Basic
import Footcite.Resolution.Draft

/-!
# Resolution

`Resolution.ofNotes` decides and writes every citation of the notes of a document and fills in the cross-references;
`process` does so for a whole document. What fails first in the order of reading ends the work: first the
tokens of all notes, then the anchors, then the citations and references.
-/

namespace Footcite

/-- A note with the pieces of its text. -/
structure SettledNote where
  note : Note
  pieces : List Piece
  deriving Repr

/-- The text of a settled note. -/
def SettledNote.text (n : SettledNote) : Text := Piece.join n.pieces

/-- What comes of the notes of a document. -/
structure Resolution where
  settled : List SettledNote
  /-- The displayed numbers of the anchored notes. -/
  crossrefs : Anchors
  /-- The journals abbreviated by rule for the first time. -/
  notices : List Notice
  deriving Repr

namespace Resolution

/-- The citations in the order of the document. -/
def citations (r : Resolution) : List Draft := r.settled.flatMap fun n => n.pieces.filterMap Piece.draft?

/-- The texts of the notes. -/
def texts (r : Resolution) : List Text := r.settled.map (·.text)

/-- Decides and writes every citation of the notes, and fills in the cross-references. -/
def ofNotes (library : Library) (notes : List Note) : Editing Resolution := do
  let known := (← get).journals.notices.length
  let crossrefs ← Anchors.ofNotes notes
  let (pieces, ledger) ← Note.draftAll library crossrefs {} notes
  let pieces ← pieces.mapM fun ps => ps.mapM (Piece.settle ledger)
  let notices := (← get).journals.notices.drop known
  let r : Resolution := ⟨List.zipWith SettledNote.mk notes pieces, crossrefs, notices⟩
  Editing.note (.settled r.citations.length notes.length)
  pure r

end Resolution

/-- What comes of a document. -/
structure Processed where
  document : Document
  resolution : Resolution
  output : Text
  deriving Repr

/-- Works through a document: its notes are displayed under their positions plus the offset. On demand the bold text
of the result is set in small caps. -/
def process (library : Library) (offset : Int) (smallCaps : Bool) (t : Text) : Editing Processed := do
  let document ← Document.read offset t
  Editing.note (.foundNotes document.placed.length)
  let resolution ← Resolution.ofNotes library document.notes
  let filled := document.fill resolution.texts
  pure ⟨document, resolution, if smallCaps then filled.smallCaps else filled⟩

end Footcite
