import Footcite.Proofs.Citation.Steady
import Footcite.Proofs.Numbering.Alike

/-!
# Citations under shifted numbers

A citation depends on the numbers of notes through the form that points back to one, and there the number stands as a
numeral in otherwise unchanged words (`Source.cite_alike`).
-/

namespace Footcite

/-- Words that point back to a note. -/
def Form.pointing (head : Text) (note : Int) (tail : Text) : Text :=
  head ++ ", *supra* note " ++ Numeral.ofInt note ++ tail

theorem Form.pointing_append (head : Text) (note : Int) (tail t : Text) :
    pointing head note tail ++ t = pointing head note (tail ++ t) := List.append_assoc ..

/-- **The texts of a citation in a form and in the shifted form**: the same, but for the number of the note that the
form points back to. -/
structure Form.Words (δ : Int) (form : Form) (t u : Text) : Prop where
  same : (∀ n flag, form ≠ .short n flag) → u = t
  pointed : ∀ n flag, form = .short n flag →
    ∃ head tail, t = pointing head n tail ∧ u = pointing head (n + δ) tail

namespace Source

open Editing Styled

variable {δ : Int} {user bundled : Table Text}

/-- A citation that is not pointed back to a note. -/
theorem cite_alike_self (s : Source) (form : Form) (pincite parenthetical : Option Text) :
    Alike user bundled δ Eq (s.cite form pincite parenthetical) (s.cite form pincite parenthetical) :=
  .of_steady (s.cite_steady form pincite parenthetical) (s.cite_fails form pincite parenthetical) fun _ h => h.shifted

/-- The words of a short citation. -/
theorem markdown_pointing (head : Styled) (note : Int) (place : Text) :
    (head ++ plain (", *supra* note " ++ Numeral.ofInt note ++ place)).markdown =
      Form.pointing head.markdown note place := by
  simp [Styled.markdown, plain, Span.markdown, Form.pointing]

/-- A citation that points back to a note. -/
theorem short_alike (s : Source) (hs : s.isCase = false) (note : Int) (flag : Bool) (pincite : Option Text) :
    Alike user bundled δ
      (fun a b => ∃ head tail, a.markdown = Form.pointing head note tail ∧
        b.markdown = Form.pointing head (note + δ) tail)
      (s.short note flag pincite) (s.short (note + δ) flag pincite) := by
  unfold short
  simp only [hs, Bool.false_eq_true, if_false]
  refine (Alike.of_steady (s.shortHead_asking flag).steady (s.shortHead_fails flag) fun _ h => h.shifted).bind ?_
  rintro head _ rfl
  refine (Alike.liftM (Numeral.write_alike note)).bind ?_
  rintro _ _ ⟨rfl, rfl⟩
  exact .pure ⟨_, _, markdown_pointing .., markdown_pointing ..⟩

/-- **A citation and its shifted one** have the same words but for the number of a note that is pointed back to. -/
theorem cite_alike (s : Source) {form : Form} (hback : ∀ n flag, form = .short n flag → s.isCase = false)
    (pincite parenthetical : Option Text) : Alike user bundled δ (form.Words δ)
      (s.cite form pincite parenthetical) (s.cite (form.shifted δ) pincite parenthetical) := by
  by_cases hshort : ∃ n flag, form = .short n flag
  · obtain ⟨n, flag, rfl⟩ := hshort
    have hclean : EndsAlike δ Eq (Pincite.clean s.id pincite) (Pincite.clean s.id pincite) :=
      .refl fun _ h => (s.clean_fault h).shifted
    refine Alike.map (R := fun a b => ∃ head tail, a.markdown = Form.pointing head n tail ∧
      b.markdown = Form.pointing head (n + δ) tail) ?_ ?_
    · refine (Alike.liftM hclean).bind ?_
      rintro pin _ rfl
      refine (s.short_alike (hback n flag rfl) n flag pin).bind ?_
      rintro a b ⟨head, tail, ha, hb⟩
      refine .pure ⟨head, tail ++ (parenthesis parenthetical).markdown, ?_, ?_⟩
      · rw [markdown_append, ha, Form.pointing_append]
      · rw [markdown_append, hb, Form.pointing_append]
    · rintro a b ⟨head, tail, ha, hb⟩
      refine ⟨fun h => absurd rfl (h n flag), fun n' flag' h => ?_⟩
      cases h
      exact ⟨head, tail, ha, hb⟩
  · have hsame : form.shifted δ = form := by
      cases form with
      | short n flag => exact absurd ⟨n, flag, rfl⟩ hshort
      | _ => rfl
    rw [hsame]
    refine (s.cite_alike_self form pincite parenthetical).imp ?_
    rintro t _ rfl
    exact ⟨fun _ => rfl, fun n flag h => absurd ⟨n, flag, h⟩ hshort⟩

end Source

end Footcite
