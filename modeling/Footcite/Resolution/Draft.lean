import Footcite.Citation.Basic
import Footcite.Citation.Sentence
import Footcite.Ledger
import Footcite.Note.Anchors
import Footcite.Note.Step

/-!
# Drafts

A first walk through the notes writes every citation as what has been cited up to there suggests (`Draft`). A later
citation may show that an earlier one needs a short name, so a second walk settles the drafts (`Draft.settle`). The
text of a note is then put together from its pieces (`Piece.join`).
-/

namespace Footcite

/-- A citation as it is written at its place. -/
structure Draft where
  position : Int
  /-- The displayed number of the note. -/
  number : Int
  source : Source
  pincite : Option Text
  /-- The parenthetical, if it holds no tokens. -/
  parenthetical : Option Text
  form : Form
  text : Text
  deriving Repr

/-- A piece of the text of a note. -/
inductive Piece
  | text (t : Text)
  | cite (d : Draft)
  deriving Repr

/-- The citation of a piece. -/
def Piece.draft? : Piece → Option Draft
  | .text _ => none
  | .cite d => some d

/-! ## The first walk -/

/-- Work whose failures are placed in a note. -/
def Editing.inNote {α : Type} (number : Int) (work : Editing α) : Editing α := ExceptT.adapt (·.inNote number) work

/-- Writes the citation of a mention, and enters it into the ledger. -/
def Draft.write (library : Library) (n : Note) (l : Ledger) (m : Mention) (parenthetical : Option Text)
    (before : List Segment) : Editing (Draft × Ledger) := do
  match library.get? m.source with
  | none => throw (.unknownSource m.source n.number)
  | some source => do
    let pincite ← Editing.inNote n.number (Pincite.clean source.id m.pincite)
    let (form, l) ← l.choose source n.position n.number pincite (Segment.opensSentenceAfter before)
    let text ← Editing.inNote n.number (source.cite form pincite parenthetical)
    Editing.note (.decided n.number source.id form)
    pure (⟨n.position, n.number, source, pincite, parenthetical, form, text⟩,
      l.enterCitation source.id n.position m.inString pincite)

/-- Takes a step in a note. -/
def Step.take (library : Library) (anchors : Anchors) (n : Note) (l : Ledger) : Step → Editing (List Piece × Ledger)
  | .text t => pure ([.text t], l)
  | .cite m parenthetical before => do
    let (d, l) ← Draft.write library n l m parenthetical before
    pure ([.cite d], l)
  | .interrupt => pure ([], l.interrupt n.position)
  | .use ref => do
    let number ← anchors.lookup ref n.number
    let numeral ← Numeral.write number
    pure ([.text numeral], l)

/-- Takes steps in a note one after another. -/
def Step.takeAll (library : Library) (anchors : Anchors) (n : Note) (l : Ledger) :
    List Step → Editing (List Piece × Ledger)
  | [] => pure ([], l)
  | s :: rest => do
    let (pieces, l) ← s.take library anchors n l
    let (more, l) ← takeAll library anchors n l rest
    pure (pieces ++ more, l)

/-- Walks through notes one after another; gives the pieces of each. -/
def Note.draftAll (library : Library) (anchors : Anchors) (l : Ledger) :
    List Note → Editing (List (List Piece) × Ledger)
  | [] => pure ([], l)
  | n :: rest => do
    let (pieces, l) ← Step.takeAll library anchors n l n.steps
    let (more, l) ← draftAll library anchors l rest
    pure (pieces :: more, l)

/-! ## The second walk -/

/-- Gives a full or short citation the flag that its source has in the end, and writes it anew if that changes it. -/
def Draft.settle (l : Ledger) (d : Draft) : Editing Draft := do
  match d.form.hereinafter? with
  | none => pure d
  | some flag => match l.records.get? d.source.id with
    | none => throw (.noRecord d.source.id)
    | some r =>
      if r.hereinafter = flag then pure d
      else do
        let form := d.form.withHereinafter r.hereinafter
        let text ← Editing.inNote d.number (d.source.cite form d.pincite d.parenthetical)
        pure { d with form, text }

/-- Settles the citation of a piece. -/
def Piece.settle (l : Ledger) : Piece → Editing Piece
  | .text t => pure (.text t)
  | .cite d => .cite <$> d.settle l

/-! ## Putting a note together -/

/-- Whether a citation ends in a full stop, asterisks after it aside. -/
def endsInStop (t : Text) : Bool := (t.dropEndWhile (· = '*')).getLast? = some '.'

/-- The pieces one after another. A citation that ends in a full stop takes up the one that a text after it begins
with; the flag says that such a citation came just before. -/
def Piece.joinAfter (stop : Bool) : List Piece → Text
  | [] => []
  | .text ('.' :: t) :: rest => (if stop then t else '.' :: t) ++ joinAfter false rest
  | .text t :: rest => t ++ joinAfter false rest
  | .cite d :: rest => d.text ++ joinAfter (endsInStop d.text) rest

/-- The text of a note. -/
def Piece.join (pieces : List Piece) : Text := (joinAfter false pieces).trim

end Footcite
