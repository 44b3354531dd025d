import Footcite.Note.Enclosed
import Mathlib.Data.List.Infix

/-!
# Levels of brackets

`Brackets.level` counts the brackets that are open after a text, and fails where one is closed that was not open. So a
text is balanced (`Brackets.Balanced`) exactly when it leads from level zero back to it (`Brackets.balanced_iff`), and
what `enclosed?` takes is a balanced text up to a closing bracket (`Brackets.enclosed?_eq_some`). Texts of the same
level stand for one another inside any text (`Brackets.level_append`).
-/

namespace Footcite.Brackets

variable {b : Brackets}

/-- The number of brackets that are open after a text, if so many are before it; none when one is closed that is not
open. -/
def level (b : Brackets) : Text → Nat → Option Nat
  | [], n => some n
  | c :: t, n =>
    if c = b.opening then level b t (n + 1)
    else if c = b.closing then
      match n with
      | 0 => none
      | m + 1 => level b t m
    else level b t n

@[simp] theorem level_nil : b.level [] = some := rfl

/-- The level goes through a text from its beginning to its end. -/
theorem level_append (t u : Text) (n : Nat) : b.level (t ++ u) n = (b.level t n).bind (b.level u) := by
  induction t generalizing n with
  | nil => rfl
  | cons c t ih =>
    simp only [List.cons_append, level]
    split
    · exact ih (n + 1)
    · split
      · cases n with
        | zero => rfl
        | succ m => exact ih m
      · exact ih n

/-- A text that changes no level may stand before another. -/
theorem level_append_of_eq {t : Text} (h : b.level t = some) (u : Text) : b.level (t ++ u) = b.level u := by
  funext n
  rw [level_append, h, Option.bind_some]

/-- Texts of the same levels one after another. -/
theorem level_append_congr {t t' u u' : Text} (ht : b.level t = b.level t') (hu : b.level u = b.level u') :
    b.level (t ++ u) = b.level (t' ++ u') := by
  funext n
  rw [level_append, level_append, ht, hu]

theorem level_cons_congr {t t' : Text} (c : Char) (h : b.level t = b.level t') : b.level (c :: t) = b.level (c :: t') :=
  level_append_congr (show b.level [c] = b.level [c] from rfl) h

/-- Without brackets the level stays. -/
theorem level_of_free {t : Text} (h : ∀ c ∈ t, c ≠ b.opening ∧ c ≠ b.closing) : b.level t = some := by
  induction t with
  | nil => rfl
  | cons c t ih =>
    obtain ⟨⟨ho, hc⟩, h⟩ := List.forall_mem_cons.mp h
    funext n
    simp [level, ho, hc, ih h]

/-- Leaving out characters other than brackets changes no level. -/
theorem level_filter {p : Char → Bool} (hp : ∀ c, p c = false → c ≠ b.opening ∧ c ≠ b.closing) (t : Text) :
    b.level (t.filter p) = b.level t := by
  induction t with
  | nil => rfl
  | cons c t ih =>
    cases hc : p c with
    | true =>
      rw [List.filter_cons_of_pos hc]
      exact level_cons_congr c ih
    | false =>
      rw [List.filter_cons_of_neg (by simp [hc]), ih]
      exact (level_append_of_eq (t := [c]) (level_of_free (by simpa using hp c hc)) t).symm

/-- A text that changes no level changes none in brackets. -/
theorem level_enclose {t : Text} (hb : b.opening ≠ b.closing) (h : b.level t = some) :
    b.level (b.opening :: (t ++ [b.closing])) = some := by
  funext n
  have hclosing : b.level [b.closing] (n + 1) = some n := by simp [level, hb.symm]
  rw [← hclosing, ← level_append_of_eq h [b.closing]]
  exact if_pos rfl

/-- A level, in terms of the numbers of brackets in all beginnings of the text. -/
theorem level_eq_some (hb : b.opening ≠ b.closing) {t : Text} {n m : Nat} : b.level t n = some m ↔
    (∀ u, u <+: t → u.count b.closing ≤ n + u.count b.opening) ∧
      n + t.count b.opening = m + t.count b.closing := by
  induction t generalizing n with
  | nil => simp [level]
  | cons c t ih =>
    have hfront (p : Text → Prop) : (∀ u, u <+: c :: t → p u) ↔ p [] ∧ ∀ u, u <+: t → p (c :: u) := by
      constructor
      · intro h
        exact ⟨h [] List.nil_prefix, fun u hu => h (c :: u) (List.cons_prefix_cons.mpr ⟨rfl, hu⟩)⟩
      · rintro ⟨hnil, hcons⟩ u hu
        cases u with
        | nil => exact hnil
        | cons d u =>
          obtain ⟨rfl, hut⟩ := List.cons_prefix_cons.mp hu
          exact hcons u hut
    rw [hfront]
    by_cases ho : c = b.opening
    · subst ho
      simp only [level, if_true, ih, List.count_cons_self, List.count_cons_of_ne hb, List.count_nil]
      constructor
      · rintro ⟨h, he⟩
        exact ⟨⟨by omega, fun u hu => by have := h u hu; omega⟩, by omega⟩
      · rintro ⟨⟨-, h⟩, he⟩
        exact ⟨fun u hu => by have := h u hu; omega, by omega⟩
    · by_cases hc : c = b.closing
      · subst hc
        simp only [level, if_neg ho, if_true, List.count_cons_self, List.count_cons_of_ne ho, List.count_nil]
        cases n with
        | zero =>
          simp only [reduceCtorEq, false_iff]
          rintro ⟨⟨-, h⟩, -⟩
          have := h [] List.nil_prefix
          simp at this
        | succ n =>
          simp only [ih]
          constructor
          · rintro ⟨h, he⟩
            exact ⟨⟨by omega, fun u hu => by have := h u hu; omega⟩, by omega⟩
          · rintro ⟨⟨-, h⟩, he⟩
            exact ⟨fun u hu => by have := h u hu; omega, by omega⟩
      · simp only [level, if_neg ho, if_neg hc, ih, List.count_cons_of_ne ho, List.count_cons_of_ne hc, List.count_nil]
        constructor
        · rintro ⟨h, he⟩
          exact ⟨⟨by omega, h⟩, he⟩
        · rintro ⟨⟨-, h⟩, he⟩
          exact ⟨h, he⟩

/-- **A balanced text**: in no beginning of it are more brackets closed than opened, and in the whole as many. -/
def Balanced (b : Brackets) (t : Text) : Prop :=
  (∀ u, u <+: t → u.count b.closing ≤ u.count b.opening) ∧ t.count b.closing = t.count b.opening

/-- A text is balanced when it leads back to the level it began at. -/
theorem balanced_iff (hb : b.opening ≠ b.closing) {t : Text} : b.Balanced t ↔ b.level t 0 = some 0 := by
  rw [level_eq_some hb]
  simp only [Balanced, Nat.zero_add, eq_comm]

/-- Whether a square bracket is closed that was not open, or left open, can be found out. -/
instance (t : Text) : Decidable (square.Balanced t) := decidable_of_iff _ (balanced_iff (by decide)).symm

/-- A text that leads back to level zero leads back to every level. -/
theorem level_eq_self (hb : b.opening ≠ b.closing) {t : Text} (h : b.level t 0 = some 0) : b.level t = some := by
  funext n
  obtain ⟨hfront, hcount⟩ := (level_eq_some hb).mp h
  refine (level_eq_some hb).mpr ⟨fun u hu => ?_, by omega⟩
  have := hfront u hu
  omega

/-- What is enclosed leads from the level at which it begins to the closing bracket. -/
theorem enclosedFrom_eq_some (hb : b.opening ≠ b.closing) {t inside rest : Text} {n : Nat} :
    enclosedFrom b n t = some (inside, rest) ↔ t = inside ++ b.closing :: rest ∧ b.level inside n = some 0 := by
  constructor
  · intro h
    refine ⟨enclosedFrom_eq h, ?_⟩
    induction t generalizing inside n with
    | nil => simp [enclosedFrom] at h
    | cons c t ih =>
      simp only [enclosedFrom] at h
      split at h
      · next ho =>
        obtain ⟨⟨i, r⟩, hi, he⟩ := Option.map_eq_some_iff.mp h
        cases he
        simp [level, ho, ih hi]
      · next ho =>
        split at h
        · next hc =>
          cases n with
          | zero =>
            cases h
            rfl
          | succ n =>
            obtain ⟨⟨i, r⟩, hi, he⟩ := Option.map_eq_some_iff.mp h
            cases he
            simp [level, hc, Ne.symm hb, ih hi]
        · next hc =>
          obtain ⟨⟨i, r⟩, hi, he⟩ := Option.map_eq_some_iff.mp h
          cases he
          simp [level, ho, hc, ih hi]
  · rintro ⟨rfl, h⟩
    induction inside generalizing n with
    | nil =>
      cases h
      simp [enclosedFrom, Ne.symm hb]
    | cons c inside ih =>
      simp only [level] at h
      split at h
      · next ho => simp [enclosedFrom, ho, ih h]
      · next ho =>
        split at h
        · next hc =>
          cases n with
          | zero => cases h
          | succ n => simp [enclosedFrom, hc, Ne.symm hb, ih h]
        · next hc => simp [enclosedFrom, ho, hc, ih h]

/-- **What is enclosed is the balanced text up to the closing bracket.** -/
theorem enclosed?_eq_some (hb : b.opening ≠ b.closing) {t inside rest : Text} :
    enclosed? b t = some (inside, rest) ↔ t = inside ++ b.closing :: rest ∧ b.Balanced inside := by
  rw [balanced_iff hb]
  exact enclosedFrom_eq_some hb

/-- A text without brackets is balanced. -/
theorem Balanced.of_free (hb : b.opening ≠ b.closing) {t : Text} (h : ∀ c ∈ t, c ≠ b.opening ∧ c ≠ b.closing) :
    b.Balanced t := by
  rw [balanced_iff hb, level_of_free h]

end Footcite.Brackets
