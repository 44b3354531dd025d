import Footcite.Note.Enclosed

/-!
# The layout of a document

A document is prose with notes in it. A note begins with a caret and a square bracket, unless a backslash stands
before the caret, and ends with the bracket that closes this one (`Layout.ofText`).
-/

namespace Footcite

/-- Prose and the bodies of notes in turn. -/
inductive Layout
  /-- The prose up to the end. -/
  | prose (t : Text)
  /-- A note that is never closed: the prose before it, and the text from its caret on. -/
  | unclosed (before opened : Text)
  | note (before body : Text) (rest : Layout)
  deriving Repr

namespace Layout

/-- Puts a character in front. -/
def cons (c : Char) : Layout → Layout
  | prose t => prose (c :: t)
  | unclosed before opened => unclosed (c :: before) opened
  | note before body rest => note (c :: before) body rest

/-- The layout of a text; the flag says that a backslash stands before it. -/
def scan (escaped : Bool) (t : Text) : Layout :=
  match t with
  | [] => prose []
  | '^' :: '[' :: opened =>
    if escaped then (scan false ('[' :: opened)).cons '^'
    else match _h : enclosed? square opened with
      | some (body, rest) => note [] body (scan false rest)
      | none => unclosed [] t
  | c :: rest => (scan (c = '\\') rest).cons c
  termination_by t.length
  decreasing_by
    · simp
    · have := congrArg List.length (enclosed?_eq _h)
      simp at this ⊢
      omega
    · simp

/-- The layout of a document. -/
def ofText (t : Text) : Layout := scan false t

end Layout

end Footcite
