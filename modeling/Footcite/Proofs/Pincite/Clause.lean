import Footcite.Pincite.Grammar
import Footcite.Proofs.Text.Blanks
import Footcite.Proofs.Text.Recogniser

/-!
# Clauses keep inside brackets

A pincite clause holds no brackets and does not look past an opening parenthesis (`Pincite.clause_inside`). So what
`Pincite.scan` takes off the front of a text is a part of the text without brackets (`Pincite.scan_eq`), and it takes
the same when a parenthesis is opened after the text (`Pincite.scan_append`).
-/

namespace Footcite.Pincite

open Recogniser

/-! ## Locations -/

/-- An opening parenthesis ends a word as the end of a text does. -/
theorem endsWord_append (t v : Text) : Text.endsWord (t ++ '(' :: v) = Text.endsWord t := by
  cases t with
  | nil => rfl
  | cons c rest => rfl

theorem numeral_inside : Inside numeral :=
  ((Inside.one (by decide)).many1 Shrinks.one).next ((Inside.one (by decide)).optional.next (.ahead endsWord_append))

theorem number_inside : Inside number :=
  numeral_inside.next (((Inside.one (by decide)).next numeral_inside).many (Shrinks.one.next_left numeral_inside))

theorem span_inside : Inside span :=
  number_inside.next (Inside.blanks.next ((Inside.one (by decide)).next (Inside.blanks.next number_inside))).optional

theorem noteReference_inside : Inside noteReference :=
  (Inside.word (by decide)).next
    ((Inside.word (by decide)).optional.next ((Inside.word (by decide)).next (Inside.blanks.next span_inside)))

theorem label_inside : Inside label := by
  apply Inside.firstOf
  simp only [List.forall_mem_cons]
  refine ⟨?_, ?_, ?_, ?_, ?_, ?_, ?_, by simp⟩
  · exact (Inside.word (by decide)).next (Inside.word (by decide)).optional
  · exact (Inside.word (by decide)).next (Inside.word (by decide)).optional
  · exact Inside.word (by decide)
  · exact Inside.word (by decide)
  · exact (Inside.word (by decide)).next (Inside.word (by decide)).optional
  · exact Inside.word (by decide)
  · exact Inside.word (by decide)

theorem location_inside : Inside location := by
  apply Inside.firstOf
  simp only [List.forall_mem_cons]
  refine ⟨?_, noteReference_inside, Inside.word (by decide), by simp⟩
  exact (label_inside.next Inside.blanks).optional.next
    (span_inside.next (Inside.blanks.next noteReference_inside).optional)

/-! ## Clauses -/

theorem joint_inside : Inside joint :=
  (Inside.blanks.next ((Inside.one (by decide)).next Inside.blanks)).or
    (Inside.gap.next ((Inside.word (by decide)).next Inside.gap))

theorem joint_shrinks : Shrinks joint :=
  (Shrinks.next_right Inside.blanks (Shrinks.one.next_left Inside.blanks)).or
    ((Shrinks.many1 (Inside.one (by decide)) Shrinks.one).next_left ((Inside.word (by decide)).next Inside.gap))

theorem locations_inside : Inside locations :=
  location_inside.next ((joint_inside.next location_inside).many (joint_shrinks.next_left location_inside))

theorem place_inside : Inside place :=
  Inside.blanks.next (((Inside.word (by decide)).next Inside.gap).optional.next
    (((Inside.word (by decide)).next (.ahead endsWord_append)).or locations_inside))

/-- An opening parenthesis closes a clause as the end of a text does. -/
theorem closesClause_append (t v : Text) : closesClause (t ++ '(' :: v) = closesClause t := by
  obtain ⟨lead, ht, hlead⟩ := Text.exists_trimStart t
  have happend : (t ++ '(' :: v).trimStart = (t.trimStart ++ '(' :: v).trimStart := by
    conv_lhs => rw [ht, List.append_assoc]
    exact Text.trimStart_append hlead _
  unfold closesClause
  rw [happend]
  cases h : t.trimStart with
  | nil => rfl
  | cons c u => rw [List.cons_append, Text.trimStart_cons (Text.isBlank_of_trimStart h)]

theorem bareAt_inside : Inside bareAt :=
  Inside.blanks.next ((Inside.word (by decide)).next (.ahead closesClause_append))

/-- **A pincite clause keeps inside brackets.** -/
theorem clause_inside : Inside clause := place_inside.or bareAt_inside

/-! ## What is taken off a text -/

/-- What is taken off the front of a text holds no brackets, and without the blanks around it is the pincite. -/
theorem scan_eq (t : Text) : ∃ u : Text, t = u ++ (scan t).2 ∧ (scan t).1 = u.trimmed? ∧
    ∀ c ∈ u, isBracket c = false := by
  unfold scan
  cases h : clause t with
  | nil => exact ⟨[], rfl, rfl, by simp⟩
  | cons rest others =>
    obtain ⟨u, rfl, hu⟩ := clause_inside.takes t rest (by simp [h])
    have hsize : (u ++ rest).length - rest.length = u.length := by simp
    refine ⟨u, ?_, ?_, hu⟩
    · simp only [hsize, List.drop_left]
    · simp only [hsize, List.take_left]

/-- A parenthesis that is opened after a text is no matter to the clause at its front. -/
theorem scan_append (t v : Text) : scan (t ++ '(' :: v) = ((scan t).1, (scan t).2 ++ '(' :: v) := by
  unfold scan
  rw [clause_inside.stops]
  cases h : clause t with
  | nil => rfl
  | cons rest others =>
    have hle : rest.length ≤ t.length := clause_inside.length_le (t := t) (by simp [h])
    have hsize : (t ++ '(' :: v).length - (rest ++ '(' :: v).length = t.length - rest.length := by
      simp only [List.length_append]
      omega
    simp only [List.map_cons, hsize]
    rw [List.take_append_of_le_length (by omega), List.drop_append_of_le_length (by omega)]

end Footcite.Pincite
