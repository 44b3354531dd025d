import Footcite.Text.Basic

/-!
# Segments of a note

The body of a note is a sequence of segments: text, mentions of sources, breakers that end a run of citations, and the
two ends of a cross-reference. The parenthetical of a mention is a sequence of segments in turn when it holds tokens.
-/

namespace Footcite

/-- A mention of a source. -/
structure Mention where
  source : Text
  /-- The place among the mentions and breakers of the note, from zero. -/
  ordinal : Nat := 0
  /-- Whether the note holds another mention. -/
  inString : Bool := false
  pincite : Option Text := none
  /-- What stands in parentheses after the mention. -/
  parenthetical : Option Text := none
  deriving Repr, DecidableEq

/-- A segment of a note. -/
inductive Segment
  | text (t : Text)
  /-- A mention; the segments of its parenthetical if that holds tokens. -/
  | mention (m : Mention) (inner : List Segment)
  | breaker (ordinal : Nat)
  | anchor (ref : Text)
  | use (ref : Text)
  deriving Repr

instance : Inhabited Segment := ⟨.text []⟩

mutual

/-- Segments are compared with their parentheticals. -/
def Segment.decEq : (s s' : Segment) → Decidable (s = s')
  | .text t, .text t' => decidable_of_iff (t = t') (by simp)
  | .mention m inner, .mention m' inner' =>
    have := Segment.decEqAll inner inner'
    decidable_of_iff (m = m' ∧ inner = inner') (by simp)
  | .breaker n, .breaker n' => decidable_of_iff (n = n') (by simp)
  | .anchor ref, .anchor ref' => decidable_of_iff (ref = ref') (by simp)
  | .use ref, .use ref' => decidable_of_iff (ref = ref') (by simp)
  | .text _, .mention .. | .text _, .breaker _ | .text _, .anchor _ | .text _, .use _
  | .mention .., .text _ | .mention .., .breaker _ | .mention .., .anchor _ | .mention .., .use _
  | .breaker _, .text _ | .breaker _, .mention .. | .breaker _, .anchor _ | .breaker _, .use _
  | .anchor _, .text _ | .anchor _, .mention .. | .anchor _, .breaker _ | .anchor _, .use _
  | .use _, .text _ | .use _, .mention .. | .use _, .breaker _ | .use _, .anchor _ => isFalse (by simp)

/-- Sequences of segments are compared one by one. -/
def Segment.decEqAll : (ss ss' : List Segment) → Decidable (ss = ss')
  | [], [] => isTrue rfl
  | s :: ss, s' :: ss' =>
    have := Segment.decEq s s'
    have := Segment.decEqAll ss ss'
    decidable_of_iff (s = s' ∧ ss = ss') (by simp)
  | [], _ :: _ | _ :: _, [] => isFalse (by simp)

end

instance : DecidableEq Segment := Segment.decEq

/-- A note: its place in the document from one, the number it is displayed under, and its body. -/
structure Note where
  position : Int
  number : Int
  segments : List Segment
  deriving Repr, DecidableEq

mutual

/-- The mentions in reading order, a mention before those of its parenthetical. -/
def Segment.mentions : Segment → List Mention
  | .mention m inner => m :: Segment.allMentions inner
  | .text _ | .breaker _ | .anchor _ | .use _ => []

/-- The mentions of several segments. -/
def Segment.allMentions : List Segment → List Mention
  | [] => []
  | s :: rest => s.mentions ++ Segment.allMentions rest

end

/-- The mentions of a note in reading order. -/
def Note.mentions (n : Note) : List Mention := Segment.allMentions n.segments

mutual

/-- Marks every mention, at every depth, as one of several. -/
def Segment.markString : Segment → Segment
  | .mention m inner => .mention { m with inString := true } (Segment.markAll inner)
  | s => s

/-- Marks the mentions of several segments. -/
def Segment.markAll : List Segment → List Segment
  | [] => []
  | s :: rest => s.markString :: Segment.markAll rest

end

end Footcite
