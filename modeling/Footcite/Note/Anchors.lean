import Footcite.Failure
import Footcite.Note.Segment

/-!
# Cross-references

A note may be anchored under a name, and any note may refer to it by that name. All anchors of a document are bound
before any reference is looked up, so that a reference may point forward.
-/

namespace Footcite

/-- The displayed numbers of the anchored notes by their names. -/
abbrev Anchors := Table Int

namespace Anchors

/-- Anchors a note under a name that is not taken. -/
def bind (a : Anchors) (ref : Text) (number : Int) : Except Failure Anchors :=
  match a.get? ref with
  | some first => .error (.anchoredTwice ref first number)
  | none => .ok (a.set ref number)

/-- The number of the note anchored under a name, referred to in a note. -/
def lookup (a : Anchors) (ref : Text) (number : Int) : Except Failure Int :=
  match a.get? ref with
  | some n => .ok n
  | none => .error (.neverAnchored ref number)

/-- The names under which segments anchor their note. -/
def names (segments : List Segment) : List Text :=
  segments.filterMap fun
    | .anchor ref => some ref
    | _ => none

/-- The names that notes are anchored under, each with the number of its note, in order. -/
def entries (notes : List Note) : List (Text × Int) :=
  notes.flatMap fun n => (names n.segments).map fun ref => (ref, n.number)

/-- Binds the anchors of notes in order. -/
def ofNotes (notes : List Note) : Except Failure Anchors :=
  (entries notes).foldlM (fun a (ref, number) => a.bind ref number) []

end Anchors

end Footcite
