import Footcite.Document.Basic
import Footcite.Proofs.Note.Reads
import Footcite.Proofs.Numbering.Alike

/-!
# Documents under shifted numbers

The numbers of notes enter the reading of a document only where something malformed is reported, and as the numbers
of the notes that come of it: under another offset the same notes are read, with shifted numbers, or the same
fault is found (`Document.read_alike`).
-/

namespace Footcite

variable {δ : Int}

/-- The note under a shifted number. -/
def Note.shifted (δ : Int) (n : Note) : Note := { n with number := n.number + δ }

/-- The note at its place, under a shifted number. -/
def PlacedNote.shifted (δ : Int) (p : PlacedNote) : PlacedNote := { p with note := p.note.shifted δ }

/-- The document with its notes under shifted numbers. -/
def Document.shifted (δ : Int) (d : Document) : Document := { d with placed := d.placed.map (PlacedNote.shifted δ) }

namespace Segment

/-! ## Segments -/

/-- The segments of a body do not depend on the number of the note. -/
theorem readFrom_alike (note : Int) (opening : Bool) (ordinal : Nat) (body : Text) :
    EndsAlike δ Eq (readFrom note opening ordinal body) (readFrom (note + δ) opening ordinal body) := by
  -- The induction follows the reading under the first number; each step is then taken under the second.
  fun_induction readFrom note opening ordinal body with
  | case1 opening ordinal =>
    rw [readFrom_nil]
    exact .ok rfl
  | case2 opening ordinal c rest token fault h =>
    rw [readFrom_malformed h]
    exact .error (.malformed token fault note)
  | case3 opening ordinal c rest d r h ih =>
    rw [readFrom_char h]
    exact ih.bind fun _ _ he => he ▸ .ok rfl
  | case4 opening ordinal c rest source pincite r h ih =>
    rw [readFrom_mention h]
    exact ih.bind fun _ _ he => he ▸ .ok rfl
  | case5 opening ordinal c rest source pincite p r h _ hp ih ihp =>
    rw [readFrom_parenthetical h, if_pos hp]
    refine ihp.bind ?_
    rintro ⟨inner, m⟩ _ rfl
    exact (ih m).bind fun _ _ he => he ▸ .ok rfl
  | case6 opening ordinal c rest source pincite p r h _ hp ih =>
    rw [readFrom_parenthetical h, if_neg hp]
    exact (ih (ordinal + 1)).bind fun _ _ he => he ▸ .ok rfl
  | case7 opening ordinal c rest r h ih =>
    rw [readFrom_breaker h]
    exact ih.bind fun _ _ he => he ▸ .ok rfl
  | case8 opening ordinal c rest id r h ih =>
    rw [readFrom_reference h]
    exact ih.bind fun _ _ he => he ▸ .ok rfl

end Segment

/-! ## Notes and documents -/

/-- A body is read as the same note under another number. -/
theorem Note.read_alike (position number : Int) (body : Text) :
    EndsAlike δ (fun n n' => n' = n.shifted δ) (read position number body) (read position (number + δ) body) :=
  (Segment.readFrom_alike number true 0 body).bind fun _ _ he => he ▸ .ok rfl

namespace Document

theorem notes_shifted (d : Document) : (d.shifted δ).notes = d.notes.map (Note.shifted δ) := by
  simp [notes, shifted, PlacedNote.shifted]

/-- The notes of a layout under another offset. -/
theorem ofLayout_alike (offset : Int) : ∀ (layout : Layout) (position : Int),
    EndsAlike δ (fun d d' => d' = d.shifted δ) (ofLayout offset position layout)
      (ofLayout (offset + δ) position layout)
  | .prose _, _ => .ok rfl
  | .unclosed _ opened, position => by
    have hnumber : position + (offset + δ) = position + offset + δ := by omega
    rw [ofLayout, ofLayout, hnumber]
    exact .error (.malformed (opened.take shownOfUnclosed) .openNote (position + offset))
  | .note before body rest, position => by
    have hnumber : position + (offset + δ) = position + offset + δ := by omega
    rw [ofLayout, ofLayout, hnumber]
    refine (Note.read_alike position (position + offset) body).bind ?_
    rintro note _ rfl
    refine (ofLayout_alike offset rest (position + 1)).bind ?_
    rintro d _ rfl
    exact .ok rfl

/-- **A document is read as the same document under another offset**, its notes under shifted numbers. -/
theorem read_alike (offset : Int) (t : Text) :
    EndsAlike δ (fun d d' => d' = d.shifted δ) (read offset t) (read (offset + δ) t) :=
  ofLayout_alike offset (Layout.ofText t) 1

end Document

end Footcite
