import Footcite.Text.Basic

/-!
# What a text begins with and ends in

What a character means can depend on the one before it. `Text.endsIn` says whether a text ends in a given character, so
that a text can be worked through in parts (`Text.endsIn_append`). A beginning is taken off a text with `Text.after?`.
-/

namespace Footcite.Text

/-- Whether a text ends in the character; the flag says so of what comes before the text. -/
def endsIn (c : Char) (before : Bool) (t : Text) : Bool := t.getLast?.elim before (· = c)

variable {c : Char} {before : Bool}

@[simp] theorem endsIn_nil : endsIn c before [] = before := rfl

theorem endsIn_cons (d : Char) (t : Text) : endsIn c before (d :: t) = endsIn c (d = c) t := by
  cases t with
  | nil => rfl
  | cons e t => simp [endsIn, List.getLast?_cons]

theorem endsIn_append (t u : Text) : endsIn c before (t ++ u) = endsIn c (endsIn c before t) u := by
  induction t generalizing before with
  | nil => rfl
  | cons d t ih => rw [List.cons_append, endsIn_cons, endsIn_cons, ih]

theorem endsIn_false {t : Text} : endsIn c false t = false ↔ t.getLast? ≠ some c := by
  cases h : t.getLast? <;> simp [endsIn, h]

/-- A text that is not empty ends in its own last character. -/
theorem endsIn_eq_of_ne_nil {t : Text} (h : t ≠ []) : endsIn c before t = endsIn c false t := by
  cases t with
  | nil => exact absurd rfl h
  | cons d t => rw [endsIn_cons, endsIn_cons]

/-- What follows a beginning. -/
theorem after?_eq_some {beginning t u : Text} : after? beginning t = some u ↔ t = beginning ++ u := by
  fun_induction after? beginning t with
  | case1 t => simp [eq_comm]
  | case2 => simp
  | case3 b bs cs ih => simp [ih]
  | case4 b bs c cs hne => simp [Ne.symm hne]

end Footcite.Text
