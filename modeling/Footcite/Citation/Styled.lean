import Footcite.Text.Basic

/-!
# Styled text

A citation is built of spans, each plain or bold (`Styled`). In Markdown a bold span stands between double asterisks;
where a document is to be set in small caps, it carries a custom style instead.
-/

namespace Footcite

/-- A span of text. -/
inductive Span
  | plain (t : Text)
  | bold (t : Text)
  deriving Repr, DecidableEq

/-- Spans one after another. -/
abbrev Styled := List Span

/-- The style that shows a span in small caps. -/
def smallCapsStyleName : Text := "True Small Caps"

/-- A text in the small-caps style. -/
def smallCapsSpan (t : Text) : Text := '[' :: t ++ "]\x7bcustom-style=\"" ++ smallCapsStyleName ++ "\"\x7d"

namespace Span

/-- A span in Markdown. -/
def markdown : Span → Text
  | plain t => t
  | bold t => "**" ++ t ++ "**"

/-- A span with bold text in the small-caps style. -/
def smallCaps : Span → Text
  | plain t => t
  | bold t => smallCapsSpan t

end Span

namespace Styled

/-- Plain text. -/
def plain (t : Text) : Styled := [.plain t]

/-- Bold text. -/
def bold (t : Text) : Styled := [.bold t]

/-- The spans in Markdown. -/
def markdown (s : Styled) : Text := s.flatMap Span.markdown

theorem markdown_append (a b : Styled) : (a ++ b).markdown = a.markdown ++ b.markdown := List.flatMap_append

/-- The spans with bold text in the small-caps style. -/
def smallCaps (s : Styled) : Text := s.flatMap Span.smallCaps

end Styled

end Footcite
