import Footcite.Note.Segment
import Footcite.Note.Token

/-!
# Reading the body of a note

`Note.read` cuts a body into segments. Characters between tokens gather into texts; the parenthetical of a mention is
cut in turn when it holds tokens. A cross-reference before which nothing but blanks stands anchors the note, and these
blanks are dropped; anywhere else it is a use. Parentheticals may stand in one another to any depth: the bound that the
stack of a machine sets to this is not modelled.
-/

namespace Footcite

/-- Puts a character before segments. Before an anchor there are only blanks, and they are dropped. -/
def Segment.consChar (c : Char) : List Segment → List Segment
  | .text t :: rest => .text (c :: t) :: rest
  | .anchor ref :: rest => .anchor ref :: rest
  | segments => .text [c] :: segments

/-- The segments of a body, and the next free ordinal. The flag says that only blanks of the note came before. -/
def Segment.readFrom (note : Int) (opening : Bool) (ordinal : Nat) (body : Text) :
    Except Failure (List Segment × Nat) :=
  match body with
  | [] => .ok ([], ordinal)
  | c :: rest =>
    match _h : Token.read c rest with
    | .error (token, fault) => .error (.malformed token fault note)
    | .ok (.char d, r) => do
      let (segments, n) ← readFrom note (opening && isBlank d) ordinal r
      .ok (consChar d segments, n)
    | .ok (.mention source pincite none, r) => do
      let (segments, n) ← readFrom note false (ordinal + 1) r
      .ok (.mention { source, ordinal, pincite } [] :: segments, n)
    | .ok (.mention source pincite (some p), r) => do
      let (inner, m) ← if Token.occursIn p then readFrom note false (ordinal + 1) p else .ok ([], ordinal + 1)
      let (segments, n) ← readFrom note false m r
      .ok (.mention { source, ordinal, pincite, parenthetical := some p } inner :: segments, n)
    | .ok (.breaker, r) => do
      let (segments, n) ← readFrom note false (ordinal + 1) r
      .ok (.breaker ordinal :: segments, n)
    | .ok (.reference id, r) => do
      let (segments, n) ← readFrom note false ordinal r
      .ok ((if opening then .anchor id else .use id) :: segments, n)
  termination_by body.length
  decreasing_by all_goals first | exact Token.read_length _h | exact Token.read_parenthetical_length _h

/-- Reads the body of a note. Of several mentions each is marked as one of several. -/
def Note.read (position number : Int) (body : Text) : Except Failure Note := do
  let (segments, _) ← Segment.readFrom number true 0 body
  let several := 1 < (Segment.allMentions segments).length
  .ok { position, number, segments := if several then Segment.markAll segments else segments }

end Footcite
