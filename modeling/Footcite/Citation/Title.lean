import Footcite.Text.Basic

/-!
# Titles

The title of an article is set in italics, and what is marked as italic in it is set back in roman
(`Text.reverseItalics`). In the name of a case certain phrases are in italics (`Text.caseTitle`).
-/

namespace Footcite.Text

/-- What marks the beginning of a span in italics. -/
def italicsOpen : Text := "<i>"

/-- What marks the end of a span in italics. -/
def italicsClose : Text := "</i>"

/-- The text in italics. -/
def italic (t : Text) : Text := '*' :: t ++ ['*']

/-- The title without a mark at its very beginning, and with an asterisk there if it has none. -/
def italicsStart (t : Text) : Text := (after? italicsOpen t).elim ('*' :: t) id

/-- The title without a closing mark at its very end, and with an asterisk there if it has none. -/
def italicsEnd (t : Text) : Text :=
  match after? italicsClose.reverse t.reverse with
  | some front => front.reverse
  | none => t ++ ['*']

/-- Blanks before an opening mark go into the roman span: an asterisk takes their place and the mark goes. The first
argument holds the blanks just passed. -/
def moveOpening (gap : Text) : Text → Text
  | [] => gap
  | '<' :: 'i' :: '>' :: rest =>
    if gap.isEmpty then italicsOpen ++ moveOpening [] rest else '*' :: gap ++ moveOpening [] rest
  | c :: rest => if isBlank c then moveOpening (gap ++ [c]) rest else gap ++ c :: moveOpening [] rest

/-- A blank after a closing mark goes into the roman span: an asterisk follows it and the mark goes. -/
def moveClosing : Text → Text
  | [] => []
  | '<' :: '/' :: 'i' :: '>' :: c :: rest =>
    if isBlank c then c :: '*' :: moveClosing rest else italicsClose ++ moveClosing (c :: rest)
  | c :: rest => c :: moveClosing rest

/-- Every mark that is left becomes an asterisk. -/
def starMarks : Text → Text
  | [] => []
  | '<' :: 'i' :: '>' :: rest => '*' :: starMarks rest
  | '<' :: '/' :: 'i' :: '>' :: rest => '*' :: starMarks rest
  | c :: rest => c :: starMarks rest

/-- The title in italics, with its own italics in roman. -/
def reverseItalics (title : Text) : Text :=
  starMarks (moveClosing (moveOpening [] (italicsEnd (italicsStart title))))

/-- The name of a case with its procedural phrases in italics. -/
def caseTitle (title : Text) : Text := (title.replace "In re " "*In re* ").replace " ex rel. " " *ex rel.* "

end Footcite.Text
