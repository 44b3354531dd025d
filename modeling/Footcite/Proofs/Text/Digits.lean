import Footcite.Text.Numeral

/-!
# Digits that are no numeral

Not every run of digits is a numeral: superscripts and circled digits look like digits but stand in no decimal numeral,
and a numeral may have no more than so many digits. These are all the runs of digits that cannot be read
(`Text.oddDigits_iff`).
-/

namespace Footcite

/-- **A run of digits that is no numeral**: there are too many of them, or one stands in no decimal numeral. -/
def Text.OddDigits (t : Text) : Prop :=
  t ≠ [] ∧ (∀ c ∈ t, isDigitLike c = true) ∧ (Numeral.maxDigits < t.length ∨ ∃ c ∈ t, isDecimalDigit c = false)

theorem isDecimalDigit_eq_false {c : Char} : isDecimalDigit c = false ↔ digitValue? c = none := by
  rw [isDecimalDigit, Option.isSome_eq_false_iff, Option.isNone_iff_eq_none]

/-- Digits have values, unless one of them is no decimal digit. -/
theorem mapM_digitValue?_eq_none : ∀ {t : Text}, t.mapM digitValue? = none ↔ ∃ c ∈ t, isDecimalDigit c = false
  | [] => by simp
  | c :: t => by
    have ih := mapM_digitValue?_eq_none (t := t)
    simp only [List.mapM_cons, List.mem_cons, exists_eq_or_imp, isDecimalDigit_eq_false] at ih ⊢
    rw [← ih]
    cases digitValue? c with
    | none => simp
    | some n => cases t.mapM digitValue? <;> simp

/-- **The runs of digits that cannot be read.** -/
theorem Text.oddDigits_iff {t : Text} :
    t.OddDigits ↔ t ≠ [] ∧ (∀ c ∈ t, isDigitLike c = true) ∧ Numeral.digits? t = none := by
  refine and_congr_right fun hne => and_congr_right fun _ => ?_
  have hempty : t.isEmpty = false := by simpa using hne
  rw [Numeral.digits?, hempty, Bool.false_or, ← mapM_digitValue?_eq_none]
  by_cases hlong : Numeral.maxDigits < t.length <;> simp [hlong]

end Footcite
