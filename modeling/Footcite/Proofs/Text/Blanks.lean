import Footcite.Text.Basic
import Mathlib.Data.List.DropRight
import Mathlib.Data.List.TakeWhile

/-!
# Texts without their blanks

`Text.withoutBlanks` leaves out all blanks of a text. Trimming takes away blanks and nothing else (`Text.exists_trim`),
so it is no matter to the text without them.
-/

namespace Footcite.Text

/-- The text without its blanks. -/
def withoutBlanks (t : Text) : Text := t.filter fun c => !isBlank c

@[simp] theorem withoutBlanks_nil : withoutBlanks [] = [] := rfl

@[simp] theorem withoutBlanks_append (t u : Text) : withoutBlanks (t ++ u) = withoutBlanks t ++ withoutBlanks u :=
  List.filter_append ..

/-- Of blanks nothing is left. -/
theorem withoutBlanks_eq_nil {t : Text} : withoutBlanks t = [] ↔ t.blank = true := by
  simp [withoutBlanks, blank, List.filter_eq_nil_iff]

/-- A text begins with blanks, and goes on with one that does not. -/
theorem exists_trimStart (t : Text) : ∃ lead : Text, t = lead ++ t.trimStart ∧ lead.blank = true := by
  refine ⟨t.takeWhile isBlank, List.takeWhile_append_dropWhile.symm, ?_⟩
  exact List.all_takeWhile

/-- What a text ends with of a class of characters is dropped from its end. -/
theorem exists_dropEndWhile (p : Char → Bool) (t : Text) :
    ∃ trail : Text, t = t.dropEndWhile p ++ trail ∧ trail.all p = true := by
  refine ⟨(t.reverse.takeWhile p).reverse, ?_, ?_⟩
  · rw [dropEndWhile, ← List.reverse_append, List.takeWhile_append_dropWhile, List.reverse_reverse]
  · rw [List.all_reverse, List.all_takeWhile]

/-- Of a text followed by characters of the class only the end of the text is looked at. -/
theorem dropEndWhile_append {p : Char → Bool} {u : Text} (hu : u.all p = true) (t : Text) :
    (t ++ u).dropEndWhile p = t.dropEndWhile p := by
  have hnone : u.reverse.dropWhile p = [] := by
    rw [List.dropWhile_eq_nil_iff]
    intro d hd
    exact List.all_eq_true.mp hu d (List.mem_reverse.mp hd)
  simp [dropEndWhile, List.dropWhile_append, hnone]

/-- Nothing is dropped of a text that ends in a character of no such class. -/
theorem dropEndWhile_of_getLast? {p : Char → Bool} {t : Text} {c : Char} (ht : t.getLast? = some c) (hc : p c = false) :
    t.dropEndWhile p = t := by
  obtain ⟨init, rfl⟩ := List.getLast?_eq_some_iff.mp ht
  simp [dropEndWhile, hc]

/-- **A trimmed text lacks the blanks at its ends and nothing else.** -/
theorem exists_trim (t : Text) :
    ∃ lead trail : Text, t = lead ++ t.trim ++ trail ∧ lead.blank = true ∧ trail.blank = true := by
  obtain ⟨lead, ht, hlead⟩ := exists_trimStart t
  obtain ⟨trail, hs, htrail⟩ := exists_dropEndWhile isBlank t.trimStart
  refine ⟨lead, trail, ?_, hlead, htrail⟩
  rw [List.append_assoc]
  show t = lead ++ (t.trimStart.dropEndWhile isBlank ++ trail)
  rw [← hs, ← ht]

theorem withoutBlanks_trim (t : Text) : t.trim.withoutBlanks = t.withoutBlanks := by
  obtain ⟨lead, trail, ht, hlead, htrail⟩ := exists_trim t
  have h := congrArg withoutBlanks ht
  rw [withoutBlanks_append, withoutBlanks_append, withoutBlanks_eq_nil.mpr hlead, withoutBlanks_eq_nil.mpr htrail] at h
  simpa using h.symm

/-- Trimming leaves nothing of blanks only. -/
theorem trim_eq_nil {t : Text} : t.trim = [] ↔ t.blank = true := by
  constructor
  · intro h
    rw [← withoutBlanks_eq_nil, ← withoutBlanks_trim, h, withoutBlanks_nil]
  · intro h
    have hstart : t.trimStart = [] := List.dropWhile_eq_nil_iff.mpr (List.all_eq_true.mp h)
    simp [trim, trimEnd, dropEndWhile, hstart]

theorem trimmed?_eq_none {t : Text} : t.trimmed? = none ↔ t.blank = true := by
  simp [trimmed?, trim_eq_nil]

theorem trimmed?_eq_some {t s : Text} (h : t.trimmed? = some s) : s = t.trim := by
  unfold trimmed? at h
  split at h
  · cases h
  · exact (Option.some.inj h).symm

/-- A text that holds more than blanks is trimmed. -/
theorem trimmed?_eq_trim {t : Text} (h : t.blank = false) : t.trimmed? = some t.trim := by
  have hne : t.trim ≠ [] := fun ht => by simp [trim_eq_nil.mp ht] at h
  simp [trimmed?, hne]

/-- What is left by trimming, if anything, has the characters of the text other than blanks. -/
theorem withoutBlanks_trimmed? (t : Text) : (t.trimmed?.getD []).withoutBlanks = t.withoutBlanks := by
  cases h : t.trimmed? with
  | none => rw [withoutBlanks_eq_nil.mpr (trimmed?_eq_none.mp h), Option.getD_none, withoutBlanks_nil]
  | some s => rw [Option.getD_some, trimmed?_eq_some h, withoutBlanks_trim]

/-- A text that begins with a character other than a blank. -/
theorem trimStart_cons {c : Char} (hc : isBlank c = false) (t : Text) : trimStart (c :: t) = c :: t := by
  simp [trimStart, hc]

/-- The blanks that a text begins with go. -/
theorem trimStart_append {lead : Text} (h : lead.blank = true) (t : Text) : trimStart (lead ++ t) = t.trimStart := by
  have hlead : lead.dropWhile isBlank = [] := List.dropWhile_eq_nil_iff.mpr (List.all_eq_true.mp h)
  simp [trimStart, List.dropWhile_append, hlead]

/-- A text that does not begin with a blank, if it holds anything. -/
theorem isBlank_of_trimStart {t u : Text} {c : Char} (h : t.trimStart = c :: u) : isBlank c = false := by
  have := List.head?_dropWhile_not isBlank t
  unfold trimStart at h
  simpa [h] using this

/-- Of two texts the second one's end is trimmed, if there is more to it than blanks. -/
theorem trimEnd_append (t : Text) {u : Text} (h : u.blank = false) : (t ++ u).trimEnd = t ++ u.trimEnd := by
  have hleft : u.reverse.dropWhile isBlank ≠ [] := by
    rw [Ne, List.dropWhile_eq_nil_iff]
    intro hblank
    have hu : u.blank = true := List.all_eq_true.mpr fun c hc => hblank c (List.mem_reverse.mpr hc)
    rw [h] at hu
    cases hu
  simp [trimEnd, dropEndWhile, List.dropWhile_append, hleft]

/-- A trimmed text begins with no blanks. -/
theorem trimStart_trim (t : Text) : t.trim.trimStart = t.trim := by
  obtain ⟨trail, hu, -⟩ := exists_dropEndWhile isBlank t.trimStart
  have hu : t.trimStart = t.trim ++ trail := hu
  cases ht : t.trim with
  | nil => rfl
  | cons c v =>
    rw [ht] at hu
    exact trimStart_cons (isBlank_of_trimStart hu) v

/-- Nothing is left to trim of a trimmed text. -/
theorem trim_trim (t : Text) : t.trim.trim = t.trim := by
  have hend : t.trim.trimEnd = t.trim := by
    simp only [trim, trimEnd, dropEndWhile, List.reverse_reverse, List.dropWhile_idempotent]
  show t.trim.trimStart.trimEnd = t.trim
  rw [trimStart_trim, hend]

end Footcite.Text
