import Footcite.Proofs.Text.Blanks

/-!
# Words

A blank separates the words before it from those after it (`Text.words_append_blank`); all else about words follows from
this equation, by taking a text apart at its first blank (`Text.cutAtBlanks`). A text whose blanks are collapsed has the
same words (`Text.words_collapse`), so that collapsing it again changes nothing.
-/

namespace Footcite.Text

/-- A text without blanks. -/
def Solid (t : Text) : Prop := ∀ c ∈ t, isBlank c = false

variable {c : Char} {t u w : Text}

theorem Solid.append (ht : Solid t) (hu : Solid u) : Solid (t ++ u) := by
  intro c hc
  rcases List.mem_append.mp hc with hc | hc
  · exact ht c hc
  · exact hu c hc

theorem Solid.left (h : Solid (t ++ u)) : Solid t := fun c hc => h c (List.mem_append_left _ hc)

/-- **Taking a text apart at its blanks**: what holds of texts without blanks, and of a text with a blank when it holds
of what follows the first, holds of every text. -/
theorem cutAtBlanks {P : Text → Prop} (solid : ∀ t, Solid t → P t)
    (gap : ∀ t c u, Solid t → isBlank c = true → P u → P (t ++ c :: u)) : ∀ t, P t := by
  intro t
  induction h : t.length using Nat.strong_induction_on generalizing t with
  | _ n ih =>
    cases hrest : t.dropWhile (!isBlank ·) with
    | nil =>
      refine solid t fun c hc => ?_
      simpa using List.dropWhile_eq_nil_iff.mp hrest c hc
    | cons c u =>
      have hsplit : t = t.takeWhile (!isBlank ·) ++ c :: u := by rw [← hrest, List.takeWhile_append_dropWhile]
      have hblank : isBlank c = true := by
        have := List.head?_dropWhile_not (!isBlank ·) t
        simpa [hrest] using this
      have hsolid : Solid (t.takeWhile (!isBlank ·)) := fun d hd => by
        simpa using List.mem_takeWhile_imp hd
      have hshorter : u.length < n := by
        have := congrArg List.length hsplit
        simp only [List.length_append, List.length_cons] at this
        omega
      rw [hsplit]
      exact gap _ c u hsolid hblank (ih u.length hshorter u rfl)

/-! ## Cutting at a blank -/

@[simp] theorem words_nil : words [] = [] := rfl

theorem words_cons_blank (hc : isBlank c = true) (t : Text) : words (c :: t) = words t := by
  cases t with
  | nil => simp [words, hc]
  | cons d t => simp [words, hc]

/-- A character that is no blank belongs to a word. -/
theorem words_cons_ne_nil (hc : isBlank c = false) (t : Text) : words (c :: t) ≠ [] := by
  cases t with
  | nil => simp [words, hc]
  | cons d t =>
    simp only [words, hc, Bool.false_eq_true, if_false]
    split
    · exact List.cons_ne_nil _ _
    · split <;> exact List.cons_ne_nil _ _

/-- **A blank separates words.** -/
theorem words_append_blank (hc : isBlank c = true) (t u : Text) : words (t ++ c :: u) = words t ++ words u := by
  induction t with
  | nil => simpa using words_cons_blank hc u
  | cons a t ih =>
    cases t with
    | nil =>
      cases ha : isBlank a with
      | true => simp [words_cons_blank, ha, hc]
      | false => simp [words, ha, hc, words_cons_blank]
    | cons b t =>
      simp only [List.cons_append] at ih
      simp only [List.cons_append, words, ih]
      split
      · rfl
      · split
        · rfl
        · next hb =>
          obtain ⟨w, ws, hw⟩ := List.exists_cons_of_ne_nil (words_cons_ne_nil (by simpa using hb) t)
          simp [hw]

/-- A text without blanks is one word. -/
theorem words_of_solid (h : Solid t) (hne : t ≠ []) : words t = [t] := by
  induction t with
  | nil => exact absurd rfl hne
  | cons c t ih =>
    have hc : isBlank c = false := h c List.mem_cons_self
    cases t with
    | nil => simp [words, hc]
    | cons d t =>
      have hd : isBlank d = false := h d (by simp)
      simp [words, hc, hd, ih (fun e he => h e (List.mem_cons_of_mem _ he))]

/-- Blanks at the front belong to no word. -/
theorem words_blank_append (hu : u.blank = true) (t : Text) : words (u ++ t) = words t := by
  induction u with
  | nil => rfl
  | cons c u ih =>
    obtain ⟨hc, hu⟩ := (Bool.and_eq_true _ _).mp hu
    rw [List.cons_append, words_cons_blank hc, ih hu]

/-- Blanks at the end belong to no word. -/
theorem words_append_blanks (t : Text) (hu : u.blank = true) : words (t ++ u) = words t := by
  cases u with
  | nil => rw [List.append_nil]
  | cons c u =>
    obtain ⟨hc, hu⟩ := (Bool.and_eq_true _ _).mp hu
    have := words_blank_append hu []
    rw [List.append_nil, words_nil] at this
    rw [words_append_blank hc, this, List.append_nil]

/-- Trimming changes no words. -/
@[simp] theorem words_trim (t : Text) : t.trim.words = t.words := by
  obtain ⟨lead, trail, ht, hlead, htrail⟩ := exists_trim t
  conv_rhs => rw [ht]
  rw [words_append_blanks _ htrail, words_blank_append hlead]

/-! ## What words are -/

/-- A word has characters, and none of them is a blank. -/
theorem solid_of_mem_words : ∀ {t w : Text}, w ∈ t.words → w ≠ [] ∧ Solid w := by
  intro t
  induction t using cutAtBlanks with
  | solid t ht =>
    intro w hw
    by_cases hne : t = []
    · simp [hne] at hw
    · rw [words_of_solid ht hne, List.mem_singleton] at hw
      exact hw ▸ ⟨hne, ht⟩
  | gap t c u ht hc ih =>
    intro w hw
    rw [words_append_blank hc, List.mem_append] at hw
    rcases hw with hw | hw
    · by_cases hne : t = []
      · simp [hne] at hw
      · rw [words_of_solid ht hne, List.mem_singleton] at hw
        exact hw ▸ ⟨hne, ht⟩
    · exact ih hw

/-- A text that ends where a word may begin: with a blank, or before its first character. -/
def EndsGap (t : Text) : Prop := t = [] ∨ ∃ u c, t = u ++ [c] ∧ isBlank c = true

/-- What follows a gap is cut into words by itself. -/
theorem EndsGap.words_append (h : EndsGap t) (u : Text) : words (t ++ u) = words t ++ words u := by
  obtain rfl | ⟨v, c, rfl, hc⟩ := h
  · rfl
  · have hend : words (v ++ [c]) = words v := by rw [words_append_blank hc, words_nil, List.append_nil]
    rw [hend, List.append_assoc]
    exact words_append_blank hc v u

/-! ## Collapsing blanks -/

/-- Words with spaces between them are read back. -/
theorem words_join : ∀ {ws : List Text}, (∀ w ∈ ws, w ≠ [] ∧ Solid w) → words (join [' '] ws) = ws
  | [], _ => rfl
  | [w], h => words_of_solid (h w List.mem_cons_self).2 (h w List.mem_cons_self).1
  | w :: v :: ws, h => by
    have hspace : isBlank ' ' = true := by decide
    obtain ⟨hw, hws⟩ := List.forall_mem_cons.mp h
    rw [join, List.append_assoc, List.singleton_append, words_append_blank hspace, words_of_solid hw.2 hw.1,
      words_join hws]
    rfl

/-- Collapsing blanks changes no words. -/
@[simp] theorem words_collapse (t : Text) : t.collapse.words = t.words := words_join fun _ => solid_of_mem_words

@[simp] theorem collapse_collapse (t : Text) : t.collapse.collapse = t.collapse := by
  show join [' '] t.collapse.words = _
  rw [words_collapse]
  rfl

@[simp] theorem collapse_trim (t : Text) : t.trim.collapse = t.collapse := by
  show join [' '] t.trim.words = _
  rw [words_trim]
  rfl

/-- Of a text that begins with a word, the word stays. -/
theorem collapse_cut {t u : Text} {c : Char} (ht : Solid t) (hne : t ≠ []) (hc : isBlank c = true)
    (hu : u.words ≠ []) : collapse (t ++ c :: u) = t ++ ' ' :: u.collapse := by
  obtain ⟨w, ws, hw⟩ := List.exists_cons_of_ne_nil hu
  simp only [collapse, words_append_blank hc, words_of_solid ht hne, hw, List.singleton_append, join, List.append_assoc]

/-- A text whose blanks are collapsed begins with no blank. -/
theorem collapse_ne_blank_cons {t u : Text} {c : Char} (hc : isBlank c = true) : t.collapse ≠ c :: u := by
  intro h
  cases hw : t.words with
  | nil => simp [collapse, hw, join] at h
  | cons w ws =>
    obtain ⟨hne, hsolid⟩ := solid_of_mem_words (hw ▸ List.mem_cons_self : w ∈ t.words)
    obtain ⟨d, v, rfl⟩ := List.exists_cons_of_ne_nil hne
    have hfirst : (t.collapse).head? = some d := by cases ws <;> simp [collapse, hw, join]
    rw [h, List.head?_cons, Option.some.injEq] at hfirst
    have := hsolid d List.mem_cons_self
    rw [← hfirst, hc] at this
    cases this

end Footcite.Text
