import Footcite.Citation.Basic
import Footcite.Proofs.Gives

/-!
# Citations have words

Every citation that is written has words of its own, whatever the fields of its source are like (`Source.cite_ne_nil`):
a full citation has a comma or a status or a title in bold, a short one points to a note, and *id.* stands for itself.
-/

namespace Footcite

namespace Styled

/-- There is something to be read in the spans. -/
def Shown (s : Styled) : Prop := s.markdown ≠ []

variable {s s' : Styled} {t : Text}

@[simp] theorem shown_append : Shown (s ++ s') ↔ Shown s ∨ Shown s' := by
  simp only [Shown, markdown, List.flatMap_append, ne_eq, List.append_eq_nil_iff, not_and_or]

@[simp] theorem shown_bold (t : Text) : Shown (bold t) := by
  simp [Shown, bold, markdown, Span.markdown]

@[simp] theorem shown_plain : Shown (plain t) ↔ t ≠ [] := by
  simp [Shown, plain, markdown, Span.markdown]

end Styled

namespace Source

open Styled

variable {s : Source} {k k' : Desk} {form : Form} {pincite : Option Text} {hereinafter : Bool} {note : Int}
  {parts : FullParts} {st : Styled}

theorem fullBook_shown {b : Book} (h : Gives (s.fullBook b) k parts k') : Shown parts.before := by
  simp only [fullBook, gives_bind, gives_liftM, gives_pure] at h
  obtain ⟨title, _, -, after, _, -, rfl, -⟩ := h
  simp

theorem fullChapter_shown {c : Chapter} (h : Gives (s.fullChapter c) k parts k') : Shown parts.before := by
  simp only [fullChapter, gives_bind, gives_liftM, gives_pure] at h
  obtain ⟨title, _, -, container, _, -, after, _, -, rfl, -⟩ := h
  simp

theorem fullArticle_shown {a : Article} (h : Gives (s.fullArticle a) k parts k') : Shown parts.before := by
  simp only [fullArticle, gives_bind, gives_liftM] at h
  obtain ⟨title, _, -, page, _, -, journal, _, -, h⟩ := h
  split at h
  · simp only [gives_bind, gives_liftM, gives_pure] at h
    obtain ⟨volume, _, -, rfl, -⟩ := h
    simp
  · rw [gives_pure] at h
    obtain ⟨rfl, -⟩ := h
    simp

/-- A manuscript that begins on no page has a status. -/
theorem shown_status {lead : Styled} {forthcoming : Bool} {year : Option Int} :
    Shown (lead ++ plain (if forthcoming then
        match year with
        | some y => " (forthcoming " ++ Numeral.ofInt y ++ ")"
        | none => " (forthcoming)"
      else yearParenthesis year ++ " (unpublished manuscript)")) := by
  refine shown_append.mpr (.inr (shown_plain.mpr ?_))
  split
  · cases year with
    | some y => exact List.cons_ne_nil _ _
    | none => exact List.cons_ne_nil _ _
  · exact List.append_ne_nil_of_right_ne_nil _ (List.cons_ne_nil _ _)

theorem fullManuscript_shown {m : Manuscript} (h : Gives (s.fullManuscript m) k parts k') : Shown parts.before := by
  have hpage {lead : Styled} {page : Text} : Shown (lead ++ plain (" " ++ page)) :=
    shown_append.mpr (.inr (shown_plain.mpr (List.cons_ne_nil _ _)))
  unfold fullManuscript at h
  obtain ⟨title, _, -, h⟩ := gives_bind.mp h
  cases hcontainer : nonEmpty m.container with
  | some _ =>
    simp only [hcontainer, gives_bind] at h
    obtain ⟨journal, _, -, place, _, -, h⟩ := h
    split at h
    · obtain ⟨rfl, -⟩ := gives_pure.mp h
      exact hpage
    · obtain ⟨rfl, -⟩ := gives_pure.mp h
      exact shown_status
  | none =>
    simp only [hcontainer, gives_bind] at h
    obtain ⟨place, _, -, h⟩ := h
    split at h
    · obtain ⟨rfl, -⟩ := gives_pure.mp h
      exact hpage
    · obtain ⟨rfl, -⟩ := gives_pure.mp h
      exact shown_status

theorem putTogether_shown (hp : Shown parts.before) (h : Gives (s.putTogether hereinafter pincite parts) k st k') :
    Shown st := by
  unfold putTogether at h
  cases hereinafter with
  | true =>
    obtain ⟨note, _, -, h⟩ := gives_bind.mp h
    obtain ⟨rfl, -⟩ := gives_pure.mp h
    simp [hp]
  | false =>
    obtain ⟨note, _, -, h⟩ := gives_bind.mp h
    obtain ⟨rfl, -⟩ := gives_pure.mp h
    simp [hp]

theorem longCase_shown {c : Case} (h : s.longCase c pincite = .ok st) : Shown st := by
  unfold longCase at h
  obtain ⟨title, -, h⟩ := Except.bind_ok h
  obtain ⟨reporter, -, h⟩ := Except.bind_ok h
  obtain ⟨volume, -, h⟩ := Except.bind_ok h
  obtain ⟨page, -, h⟩ := Except.bind_ok h
  cases h
  simp

theorem full_shown (h : Gives (s.full hereinafter pincite) k st k') : Shown st := by
  unfold full at h
  split at h
  · obtain ⟨parts, _, hp, h⟩ := gives_bind.mp h
    exact putTogether_shown (fullBook_shown hp) h
  · obtain ⟨parts, _, hp, h⟩ := gives_bind.mp h
    exact putTogether_shown (fullChapter_shown hp) h
  · obtain ⟨parts, _, hp, h⟩ := gives_bind.mp h
    exact putTogether_shown (fullArticle_shown hp) h
  · obtain ⟨parts, _, hp, h⟩ := gives_bind.mp h
    exact putTogether_shown (fullManuscript_shown hp) h
  · exact longCase_shown (gives_liftM.mp h).1

theorem shortCase_shown (h : Gives (s.shortCase pincite) k st k') : Shown st := by
  simp only [shortCase, gives_bind, gives_liftM, gives_pure] at h
  obtain ⟨reporter, _, -, volume, _, -, page, _, -, title, _, -, rfl, -⟩ := h
  simp

theorem short_shown (h : Gives (s.short note hereinafter pincite) k st k') : Shown st := by
  unfold short at h
  split at h
  · exact shortCase_shown h
  · simp only [gives_bind, gives_liftM, gives_pure] at h
    obtain ⟨head, _, -, number, _, -, rfl, -⟩ := h
    have hsupra : ", *supra* note ".toList ≠ [] := by decide
    rw [shown_append, shown_plain, List.append_assoc]
    exact .inr (List.append_ne_nil_of_left_ne_nil hsupra _)

theorem inForm_shown (h : Gives (s.inForm form pincite) k st k') : Shown st := by
  unfold inForm at h
  split at h
  · exact full_shown h
  · exact short_shown h
  · next capitalized repeated =>
    obtain ⟨rfl, -⟩ := gives_pure.mp h
    have hid : (if capitalized then "*Id.*" else "*id.*").toList ≠ [] := by cases capitalized <;> decide
    exact shown_plain.mpr (List.append_ne_nil_of_left_ne_nil hid _)
  · exact longCase_shown (gives_liftM.mp h).1
  · exact shortCase_shown h
  · exact absurd h gives_throw
  · exact absurd h gives_throw

/-- **A citation that is written is not empty**, with or without a parenthetical. -/
theorem cite_ne_nil {parenthetical : Option Text} {t : Text} (h : Gives (s.cite form pincite parenthetical) k t k') :
    t ≠ [] := by
  simp only [cite, citeStyled, gives_map, gives_bind, gives_pure] at h
  obtain ⟨spans, ⟨pin, _, -, citation, _, hc, rfl, -⟩, rfl⟩ := h
  exact shown_append.mpr (.inl (inForm_shown hc))

end Source

end Footcite
