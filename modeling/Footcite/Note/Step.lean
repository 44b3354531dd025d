import Footcite.Note.Segment

/-!
# Reading order

A note is worked through step by step: a mention comes before the segments of its parenthetical, and these before what
follows (`Note.steps`). The parenthetical is kept as it is when it holds no tokens; otherwise its segments stand
between two texts that open and close it.
-/

namespace Footcite

/-- A step in working through a note. -/
inductive Step
  | text (t : Text)
  /-- A citation, its parenthetical if that holds no tokens, and the segments before it, the nearest first. -/
  | cite (m : Mention) (parenthetical : Option Text) (before : List Segment)
  | interrupt
  | use (ref : Text)
  deriving Repr

mutual

/-- The steps of a segment that comes after others, the nearest first. -/
def Segment.steps (before : List Segment) : Segment → List Step
  | .text t => [.text t]
  | .mention m [] => [.cite m m.parenthetical before]
  | .mention m inner =>
    .cite m none before :: .text " (" :: (Segment.allSteps [.text "("] inner ++ [.text ")"])
  | .breaker _ => [.interrupt]
  | .anchor _ => []
  | .use ref => [.use ref]

/-- The steps of segments that come after others, the nearest first. -/
def Segment.allSteps (before : List Segment) : List Segment → List Step
  | [] => []
  | s :: rest => s.steps before ++ Segment.allSteps (s :: before) rest

end

/-- The steps of a note in reading order. -/
def Note.steps (n : Note) : List Step := Segment.allSteps [] n.segments

end Footcite
