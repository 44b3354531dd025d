import Footcite.Citation.Styled

/-!
# Small caps in a finished text

`Text.smallCaps` finds the bold spans of a text in Markdown and gives each the small-caps style. A bold span begins at
the first double asterisk and ends at the next one that leaves at least one character between them, all on one line.
-/

namespace Footcite.Text

/-- The text up to the next double asterisk on the line, and the text after it. -/
def boldEnd : Text → Option (Text × Text)
  | '*' :: '*' :: rest => some ([], rest)
  | c :: rest => if c = '\n' then none else (boldEnd rest).map fun (inner, after) => (c :: inner, after)
  | [] => none

/-- The text of a bold span after its opening asterisks, and the text after it. -/
def boldSpan : Text → Option (Text × Text)
  | c :: rest => if c = '\n' then none else (boldEnd rest).map fun (inner, after) => (c :: inner, after)
  | [] => none

theorem boldEnd_length {t inner after : Text} (h : boldEnd t = some (inner, after)) : after.length ≤ t.length := by
  fun_induction boldEnd t generalizing inner with
  | case1 rest => cases h; simp; omega
  | case2 => cases h
  | case3 c rest _ _ ih =>
    obtain ⟨⟨i, a⟩, hi, he⟩ := Option.map_eq_some_iff.1 h
    cases he
    have := ih hi
    simp
    omega
  | case4 => cases h

theorem boldSpan_length {t inner after : Text} (h : boldSpan t = some (inner, after)) : after.length ≤ t.length := by
  unfold boldSpan at h
  split at h
  · split at h
    · cases h
    · obtain ⟨⟨i, a⟩, hi, he⟩ := Option.map_eq_some_iff.1 h
      cases he
      have := boldEnd_length hi
      simp
      omega
  · cases h

/-- The text with every bold span in the small-caps style. -/
def smallCaps (t : Text) : Text :=
  match t with
  | [] => []
  | '*' :: '*' :: rest =>
    match _h : boldSpan rest with
    | some (inner, after) => smallCapsSpan inner ++ smallCaps after
    | none => '*' :: smallCaps ('*' :: rest)
  | c :: rest => c :: smallCaps rest
  termination_by t.length
  decreasing_by
    · have := boldSpan_length _h
      simp
      omega
    · simp
    · simp

end Footcite.Text
