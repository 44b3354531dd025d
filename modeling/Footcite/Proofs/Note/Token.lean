import Footcite.Note.Token
import Footcite.Proofs.Text.Blanks

/-!
# The tokens that a body can begin with

All that `Token.read` can do, one case for each kind of token (`Token.Heads`, `Token.heads_of_read`): how the token is
written, and what follows it.
-/

namespace Footcite.Token

/-- **The beginning of a body**: the token there, and the text after it. -/
inductive Heads : Text → Token → Text → Prop
  /-- A character, unless it opens a token. -/
  | char {c : Char} {rest : Text} : (∀ mark r, c = '[' → rest = mark :: r → isMark mark = false) →
      Heads (c :: rest) (.char c) rest
  | breaker (after : Text) : Heads ('[' :: '$' :: ']' :: after) .breaker after.trimStart
  | reference {id : Text} (after : Text) : isReferenceId id = true →
      Heads ('[' :: '?' :: (id ++ ']' :: after)) (.reference id) after
  /-- A mention without parentheses after it. -/
  | bare {id after rest : Text} {pincite : Option Text} : isMentionId id = true →
      Pincite.scan after = (pincite, rest) → (∀ opened, rest.trimStart ≠ '(' :: opened) →
      Heads ('[' :: '@' :: (id ++ ']' :: after)) (.mention id pincite none) rest
  /-- A mention with parentheses after it. -/
  | parenthesised {id after rest opened inside r : Text} {pincite : Option Text} : isMentionId id = true →
      Pincite.scan after = (pincite, rest) → rest.trimStart = '(' :: opened →
      enclosed? round opened = some (inside, r) →
      Heads ('[' :: '@' :: (id ++ ']' :: after)) (.mention id pincite inside.trimmed?) r

/-- The id of a mention holds no square brackets. -/
theorem ne_of_isMentionId {id : Text} (hid : isMentionId id = true) : ∀ c ∈ id, c ≠ '[' ∧ c ≠ ']' := by
  intro c hc
  have := List.all_eq_true.mp (Bool.and_eq_true_iff.mp hid).2 c hc
  constructor <;> rintro rfl <;> revert this <;> decide

/-- Nor does the name of a cross-reference. -/
theorem ne_of_isReferenceId {id : Text} (hid : isReferenceId id = true) : ∀ c ∈ id, c ≠ '[' ∧ c ≠ ']' := by
  intro c hc
  have := List.all_eq_true.mp (Bool.and_eq_true_iff.mp hid).2 c hc
  constructor <;> rintro rfl <;> revert this <;> decide

variable {c : Char} {rest r : Text} {tok : Token}

theorem heads_of_mentionOf {source after : Text} (hid : isMentionId source = true)
    (h : mentionOf source after = .ok (tok, r)) : Heads ('[' :: '@' :: (source ++ ']' :: after)) tok r := by
  simp only [mentionOf] at h
  split at h
  · next opened ho =>
    split at h
    · next inside rest he =>
      cases h
      exact .parenthesised hid rfl ho he
    · cases h
  · next hn =>
    cases h
    exact .bare hid rfl hn

theorem heads_of_bracketed {mark : Char} {inside after : Text} (hm : isMark mark = true)
    (h : bracketed mark inside after = .ok (tok, r)) : Heads ('[' :: mark :: (inside ++ ']' :: after)) tok r := by
  simp only [bracketed] at h
  split at h
  · next hmark =>
    subst hmark
    split at h
    · next hid => exact heads_of_mentionOf hid h
    · cases h
  · next hmention =>
    split at h
    · next hmark =>
      subst hmark
      split at h
      · next hempty =>
        cases h
        rw [List.isEmpty_iff.mp hempty]
        exact .breaker after
      · cases h
    · next hbreaker =>
      have hmark : mark = '?' := by simpa [isMark, hmention, hbreaker] using hm
      subst hmark
      split at h
      · next hid =>
        cases h
        exact .reference _ hid
      · cases h

/-- A body that is read begins in one of these ways. -/
theorem heads_of_read (h : read c rest = .ok (tok, r)) : Heads (c :: rest) tok r := by
  unfold read at h
  split at h
  · next mark opened =>
    split at h
    · next hc =>
      simp only [Bool.and_eq_true, decide_eq_true_eq] at hc
      obtain ⟨rfl, hm⟩ := hc
      split at h
      · next inside after he =>
        rw [enclosed?_eq he]
        exact heads_of_bracketed hm h
      · cases h
    · next hc =>
      cases h
      refine .char fun mark' r hopen hr => ?_
      cases hr
      simpa [hopen] using hc
  · cases h
    exact .char fun mark r _ hr => by cases hr

/-- The name of a cross-reference that is read. -/
theorem reference_of_read {id : Text} (h : read c rest = .ok (.reference id, r)) : isReferenceId id = true := by
  cases heads_of_read h with
  | reference _ hid => exact hid

end Footcite.Token
