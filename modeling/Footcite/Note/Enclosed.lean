import Footcite.Text.Basic

/-!
# What brackets enclose

`enclosed?` takes what stands between an opening bracket, already read, and the bracket that closes it. What it takes
and what it leaves make up the text again with the closing bracket between them (`enclosed?_eq`).
-/

namespace Footcite

/-- A pair of brackets. -/
structure Brackets where
  opening : Char
  closing : Char

/-- Square brackets. -/
def square : Brackets := ⟨'[', ']'⟩

/-- Parentheses. -/
def round : Brackets := ⟨'(', ')'⟩

/-- The text up to the bracket that closes `depth + 1` open ones, and the text after it. -/
def enclosedFrom (b : Brackets) : (depth : Nat) → Text → Option (Text × Text)
  | _, [] => none
  | depth, c :: rest =>
    if c = b.opening then (enclosedFrom b (depth + 1) rest).map fun (i, r) => (c :: i, r)
    else if c = b.closing then
      match depth with
      | 0 => some ([], rest)
      | d + 1 => (enclosedFrom b d rest).map fun (i, r) => (c :: i, r)
    else (enclosedFrom b depth rest).map fun (i, r) => (c :: i, r)

/-- The text inside a bracket that has been opened, and the text after the bracket that closes it. -/
def enclosed? (b : Brackets) (t : Text) : Option (Text × Text) := enclosedFrom b 0 t

theorem enclosedFrom_eq {b : Brackets} {t inside rest : Text} : ∀ {depth : Nat},
    enclosedFrom b depth t = some (inside, rest) → t = inside ++ b.closing :: rest := by
  induction t generalizing inside with
  | nil => simp [enclosedFrom]
  | cons c t ih =>
    intro depth h
    simp only [enclosedFrom] at h
    split at h
    · obtain ⟨⟨i, r⟩, hi, he⟩ := Option.map_eq_some_iff.1 h
      cases he
      simp [ih hi]
    · split at h
      · next hc =>
        cases depth with
        | zero => cases h; simp [hc]
        | succ d =>
          obtain ⟨⟨i, r⟩, hi, he⟩ := Option.map_eq_some_iff.1 h
          cases he
          simp [ih hi]
      · obtain ⟨⟨i, r⟩, hi, he⟩ := Option.map_eq_some_iff.1 h
        cases he
        simp [ih hi]

/-- Nothing is lost between the inside and the rest but the closing bracket. -/
theorem enclosed?_eq {b : Brackets} {t inside rest : Text} (h : enclosed? b t = some (inside, rest)) :
    t = inside ++ b.closing :: rest := enclosedFrom_eq h

end Footcite
