import Footcite.Proofs.Text.Letters
import Footcite.Proofs.Text.Words
import Footcite.Text.CaseFold

/-!
# Case folding and blanks

Folding leaves a blank as it is, and makes no blank of any other character (`foldChar_of_isBlank`, `solid_foldChar`). So
a folded text has the folded words (`Text.words_fold`), it is no matter whether blanks are collapsed before a text is
folded or after (`Text.collapse_fold`), and a text has single spaces between its words as its folded form has
(`Text.collapse_eq_of_fold`).
-/

namespace Footcite

/-! ## Single characters -/

/-- **A blank has no other case.** -/
theorem foldChar_of_isBlank {c : Char} (h : isBlank c = true) : foldChar c = [c] := by
  obtain ⟨r, hr, hlo, hhi⟩ := Ranges.exists_of_holds h
  have hruns : ∀ r ∈ blankRanges, ∀ run ∈ foldRuns, run.last < r.1 ∨ r.2 < run.first := by decide +kernel
  have hexpansions : ∀ r ∈ blankRanges, ∀ e ∈ foldExpansions, e.1 < r.1 ∨ r.2 < e.1 := by decide +kernel
  have hrun : foldRuns.find? (·.holds c.toNat) = none := by
    refine List.find?_eq_none.mpr fun run hmem hholds => ?_
    simp only [FoldRun.holds, Bool.and_eq_true, decide_eq_true_eq] at hholds
    have := hruns r hr run hmem
    omega
  have hexpansion : foldExpansions.lookup c.toNat = none := by
    rw [List.lookup_eq_none_iff]
    intro e he
    have := hexpansions r hr e he
    rw [bne_iff_ne]
    omega
  simp [foldChar, hrun, hexpansion]

/-- A code point outside the ranges of the blanks is that of no blank. -/
theorem isBlank_ofNat {n : Nat} (h : ∀ r ∈ blankRanges, n < r.1 ∨ r.2 < n) : isBlank (Char.ofNat n) = false := by
  by_contra hblank
  rw [Bool.not_eq_false] at hblank
  obtain ⟨r, hr, hlo, hhi⟩ := Ranges.exists_of_holds hblank
  have hpositive : ∀ r ∈ blankRanges, 0 < r.1 := by decide
  have hcode : (Char.ofNat n).toNat = n ∨ (Char.ofNat n).toNat = 0 := by
    rw [Char.ofNat]
    by_cases hvalid : n.isValidChar
    · exact .inl (by rw [dif_pos hvalid]; rfl)
    · exact .inr (by rw [dif_neg hvalid]; rfl)
  have := hpositive r hr
  have := h r hr
  omega

/-- **No other character is folded to a blank**, or to nothing. -/
theorem solid_foldChar {c : Char} (h : isBlank c = false) : foldChar c ≠ [] ∧ Text.Solid (foldChar c) := by
  unfold foldChar
  split
  · next run hrun =>
    refine ⟨List.cons_ne_nil _ _, fun d hd => ?_⟩
    obtain rfl := List.mem_singleton.mp hd
    have hmem := List.mem_of_find?_eq_some hrun
    have hholds := List.find?_some hrun
    simp only [FoldRun.holds, Bool.and_eq_true, decide_eq_true_eq] at hholds
    have hruns : ∀ run ∈ foldRuns, ∀ r ∈ blankRanges,
        (run.last + run.shift).toNat < r.1 ∨ r.2 < (run.first + run.shift).toNat := by decide +kernel
    refine isBlank_ofNat fun r hr => ?_
    have := hruns run hmem r hr
    omega
  · split
    · next ns hns =>
      have hexpansions : ∀ e ∈ foldExpansions, e.2 ≠ [] ∧ ∀ n ∈ e.2, isBlank (Char.ofNat n) = false := by
        decide +kernel
      obtain ⟨before, after, hentries, -⟩ := List.lookup_eq_some_iff.mp hns
      obtain ⟨hne, hsolid⟩ := hexpansions (c.toNat, ns) (by simp [hentries])
      refine ⟨by simpa using hne, fun d hd => ?_⟩
      obtain ⟨n, hn, rfl⟩ := List.mem_map.mp hd
      exact hsolid n hn
    · refine ⟨List.cons_ne_nil _ _, fun d hd => ?_⟩
      exact List.mem_singleton.mp hd ▸ h

namespace Text

/-! ## Texts -/

@[simp] theorem fold_nil : fold [] = [] := rfl

theorem fold_append (t u : Text) : fold (t ++ u) = fold t ++ fold u := List.flatMap_append

theorem fold_blank_cons {c : Char} (h : isBlank c = true) (t : Text) : fold (c :: t) = c :: fold t := by
  simp [fold, foldChar_of_isBlank h]

/-- Folding makes no blanks. -/
theorem Solid.fold {t : Text} (h : Solid t) : Solid t.fold := by
  intro d hd
  obtain ⟨c, hc, hd⟩ := List.mem_flatMap.mp hd
  exact (solid_foldChar (h c hc)).2 d hd

theorem Solid.fold_ne_nil {t : Text} (h : Solid t) (hne : t ≠ []) : t.fold ≠ [] := by
  obtain ⟨c, u, rfl⟩ := List.exists_cons_of_ne_nil hne
  have hc := (solid_foldChar (h c List.mem_cons_self)).1
  simp [Text.fold, hc]

/-- **The words of a folded text** are the folded words. -/
theorem words_fold (t : Text) : t.fold.words = t.words.map fold := by
  have hsolid : ∀ t, Solid t → t.fold.words = t.words.map fold := by
    intro t ht
    by_cases hne : t = []
    · simp [hne]
    · rw [words_of_solid ht.fold (ht.fold_ne_nil hne), words_of_solid ht hne]
      rfl
  induction t using cutAtBlanks with
  | solid t ht => exact hsolid t ht
  | gap t c u ht hc ih =>
    rw [fold_append, fold_blank_cons hc, words_append_blank hc, words_append_blank hc, List.map_append, hsolid t ht, ih]

/-- Texts with spaces between them are folded one by one. -/
theorem fold_join : ∀ ws : List Text, fold (join [' '] ws) = join [' '] (ws.map fold)
  | [] => rfl
  | [w] => rfl
  | w :: v :: ws => by
    have hspace : fold [' '] = [' '] := by decide +kernel
    simp only [join, List.map_cons, fold_append, hspace, fold_join (v :: ws)]

/-- **Folding and collapsing blanks** may be done in either order. -/
theorem collapse_fold (t : Text) : t.fold.collapse = t.collapse.fold := by
  unfold collapse
  rw [words_fold, fold_join]

/-- Folding keeps all blanks, so a text is spaced as its folded form is. -/
theorem collapse_eq_of_fold {t : Text} (h : t.fold.collapse = t.fold) : t.collapse = t := by
  induction t using cutAtBlanks with
  | solid t ht =>
    by_cases hne : t = []
    · rw [hne]
      rfl
    · rw [collapse, words_of_solid ht hne]
      rfl
  | gap t c u ht hc ih =>
    rw [fold_append, fold_blank_cons hc] at h
    by_cases hne : t = []
    · subst hne
      exact absurd h (collapse_ne_blank_cons hc)
    · by_cases hu : u.words = []
      · -- After the first word come blanks only, which collapsing takes away.
        have hwords : u.fold.words = [] := by rw [words_fold, hu, List.map_nil]
        have hall : collapse (t.fold ++ c :: u.fold) = t.fold := by
          rw [collapse, words_append_blank hc, words_of_solid ht.fold (ht.fold_ne_nil hne), hwords]
          rfl
        rw [hall] at h
        exact absurd h.symm (by simp)
      · have hfolded : u.fold.words ≠ [] := by simpa [words_fold] using hu
        rw [collapse_cut ht.fold (ht.fold_ne_nil hne) hc hfolded, List.append_cancel_left_eq, List.cons.injEq] at h
        rw [collapse_cut ht hne hc hu, ih h.2, h.1]

end Text

end Footcite
