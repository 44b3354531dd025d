import Footcite.Text.Digit
import Footcite.Text.Letter
import Footcite.Text.WordChar
import Mathlib.Data.List.Chain

/-!
# Letters, digits and blanks

The classes of characters that a pincite is read by lie apart: a decimal digit is neither a blank nor a letter, no
character is met under two different letters, and letters and digits belong to words. Most letters and signs have no
equivalents but their capitals; `Apart` says so of two that differ, and `isOneOf` tells the characters that are met
under one of several.
-/

namespace Footcite

/-! ## Ranges of code points -/

/-- A code point in some ranges lies in one of them. -/
theorem Ranges.exists_of_holds : ∀ {ranges : Ranges} {n : Nat}, ranges.holds n = true →
    ∃ r ∈ ranges, r.1 ≤ n ∧ n ≤ r.2
  | [], _, h => by cases h
  | (lo, hi) :: rest, n, h => by
    unfold Ranges.holds at h
    split at h
    · cases h
    · next hlo =>
      split at h
      · next hhi => exact ⟨(lo, hi), List.mem_cons_self, by simpa using hlo, hhi⟩
      · obtain ⟨r, hr, hn⟩ := exists_of_holds h
        exact ⟨r, List.mem_cons_of_mem _ hr, hn⟩

/-- A code point that lies in one of some ranges in ascending order is found there. -/
theorem Ranges.holds_of_mem {n : Nat} {r : Nat × Nat} (hlo : r.1 ≤ n) (hhi : n ≤ r.2) : ∀ {ranges : Ranges},
    ranges.Pairwise (fun r r' => r.1 ≤ r'.1) → r ∈ ranges → ranges.holds n = true
  | (lo, hi) :: rest, hsorted, hr => by
    obtain ⟨hfirst, hsorted⟩ := List.pairwise_cons.mp hsorted
    have hstart : lo ≤ n := by
      rcases List.mem_cons.mp hr with rfl | hr
      · exact hlo
      · exact Nat.le_trans (hfirst r hr) hlo
    rw [holds, if_neg (Nat.not_lt.mpr hstart)]
    split
    · rfl
    · next hend =>
      rcases List.mem_cons.mp hr with rfl | hr
      · exact absurd hhi hend
      · exact holds_of_mem hlo hhi hsorted hr

theorem alphanumeric_sorted : alphanumeric.Pairwise fun r r' => r.1 ≤ r'.1 := by
  have hchain : alphanumeric.IsChain fun r r' => r.1 ≤ r'.1 := by decide +kernel
  exact @List.IsChain.pairwise _ _ _ ⟨Nat.le_trans⟩ hchain

/-- A decimal digit stands in one of the runs of ten. -/
theorem exists_digitZero {c : Char} (h : isDecimalDigit c = true) :
    ∃ z ∈ digitZeros, z ≤ c.toNat ∧ c.toNat < z + 10 := by
  unfold isDecimalDigit digitValue? at h
  rw [Option.isSome_map, List.find?_isSome] at h
  obtain ⟨z, hz, hc⟩ := h
  exact ⟨z, hz, by simpa using hc⟩

/-- Decimal digits and Latin letters lie apart. -/
theorem toNat_of_isDecimalDigit {c : Char} (h : isDecimalDigit c = true) : c.toNat < 65 ∨ 122 < c.toNat := by
  obtain ⟨z, hz, hlo, hhi⟩ := exists_digitZero h
  have hapart : ∀ z ∈ digitZeros, z + 10 ≤ 65 ∨ 122 < z := by decide
  have := hapart z hz
  omega

/-! ## Blanks and digits -/

/-- What is no capital has no other case. -/
theorem toLower_eq_self {c : Char} (h : c.toNat < 65 ∨ 90 < c.toNat) : c.toLower = c := by
  unfold Char.toLower
  split
  · next hupper =>
    have hlow : 65 ≤ c.toNat := hupper.1
    have hhigh : c.toNat ≤ 90 := hupper.2
    omega
  · rfl

/-- What has the small form of a sign is the sign: only letters have two cases. -/
theorem eq_of_toLower {l c : Char} (hl : l.toNat < 97 ∨ 122 < l.toNat) (h : c.toLower = l) : c = l := by
  by_cases hc : c.toNat < 65 ∨ 90 < c.toNat
  · rw [← toLower_eq_self hc, h]
  · have hcapitals : ∀ k < 26, (Char.ofNat (65 + k)).toLower.toNat = 97 + k := by decide
    have hsmall := hcapitals (c.toNat - 65) (by omega)
    rw [show 65 + (c.toNat - 65) = c.toNat by omega, Char.ofNat_toNat, h] at hsmall
    omega

/-- A blank has no other case. -/
theorem toLower_of_isBlank {c : Char} (h : isBlank c = true) : c.toLower = c := by
  obtain ⟨r, hr, hlo, hhi⟩ := Ranges.exists_of_holds h
  have hcapitals : ∀ r ∈ blankRanges, r.2 < 65 ∨ 90 < r.1 := by decide
  have hc := hcapitals r hr
  exact toLower_eq_self (by omega)

/-- A decimal digit is no blank. -/
theorem isBlank_of_isDecimalDigit {c : Char} (h : isDecimalDigit c = true) : isBlank c = false := by
  by_contra hblank
  rw [Bool.not_eq_false] at hblank
  obtain ⟨r, hr, hlo, hhi⟩ := Ranges.exists_of_holds hblank
  obtain ⟨z, hz, hzlo, hzhi⟩ := exists_digitZero h
  have hapart : ∀ r ∈ blankRanges, ∀ z ∈ digitZeros, r.2 < z ∨ z + 10 ≤ r.1 := by decide +kernel
  have := hapart r hr z hz
  omega

/-! ## Letters -/

/-- Most letters are met in two cases only. -/
theorem toLower_of_sameLetter {l c : Char} (hl : letterVariants.lookup l = none) (h : sameLetter l c = true) :
    c.toLower = l := by
  simpa [sameLetter, hl] using h

theorem isBlank_of_sameLetter {l c : Char} (hl : letterVariants.lookup l = none) (hblank : isBlank l = false)
    (h : sameLetter l c = true) : isBlank c = false := by
  by_contra hc
  rw [Bool.not_eq_false] at hc
  rw [← toLower_of_sameLetter hl h, toLower_of_isBlank hc, hc] at hblank
  cases hblank

/-- A decimal digit is not met under a letter or sign. -/
theorem sameLetter_of_isDecimalDigit {l c : Char} (hl : letterVariants.lookup l = none)
    (hdigit : isDecimalDigit l = false) (h : isDecimalDigit c = true) : sameLetter l c = false := by
  by_contra hc
  rw [Bool.not_eq_false] at hc
  have hlower : c.toLower = c := by
    have := toNat_of_isDecimalDigit h
    exact toLower_eq_self (by omega)
  rw [← toLower_of_sameLetter hl hc, hlower, h] at hdigit
  cases hdigit

/-- **Two letters or signs that no character is met under at once.** -/
def Apart (l l' : Char) : Prop := letterVariants.lookup l = none ∧ letterVariants.lookup l' = none ∧ l ≠ l'

instance (l l' : Char) : Decidable (Apart l l') := inferInstanceAs (Decidable (_ ∧ _ ∧ _))

theorem Apart.sameLetter {l l' c : Char} (h : Apart l l') (hc : sameLetter l c = true) : sameLetter l' c = false := by
  obtain ⟨hl, hl', hne⟩ := h
  by_contra hc'
  rw [Bool.not_eq_false] at hc'
  exact hne ((toLower_of_sameLetter hl hc).symm.trans (toLower_of_sameLetter hl' hc'))

/-- One of several letters and signs, in whatever case. -/
def isOneOf (ls : Text) (c : Char) : Bool := ls.any fun l => sameLetter l c

variable {ls ls' : Text} {c : Char}

theorem isOneOf_of_mem {l : Char} (hl : l ∈ ls) (hc : sameLetter l c = true) : isOneOf ls c = true :=
  List.any_eq_true.mpr ⟨l, hl, hc⟩

/-- Small letters and signs are met under themselves. -/
theorem isOneOf_of_contains (h : (ls'.all fun l => ls.contains l && sameLetter l l) = true)
    (hc : ls'.contains c = true) : isOneOf ls c = true := by
  have hself := List.all_eq_true.mp h c (List.contains_iff_mem.mp hc)
  rw [Bool.and_eq_true] at hself
  exact isOneOf_of_mem (List.contains_iff_mem.mp hself.1) hself.2

theorem isOneOf_imp (h : ls.all ls'.contains = true) (hc : isOneOf ls c = true) : isOneOf ls' c = true := by
  obtain ⟨l, hl, hlc⟩ := List.any_eq_true.mp hc
  exact isOneOf_of_mem (List.contains_iff_mem.mp (List.all_eq_true.mp h l hl)) hlc

theorem isOneOf_apart (h : (ls.all fun l => ls'.all fun l' => decide (Apart l l')) = true) (hc : isOneOf ls c = true) :
    isOneOf ls' c = false := by
  obtain ⟨l, hl, hlc⟩ := List.any_eq_true.mp hc
  refine List.any_eq_false.mpr fun l' hl' => ?_
  have hapart := of_decide_eq_true (List.all_eq_true.mp (List.all_eq_true.mp h l hl) l' hl')
  simp [hapart.sameLetter hlc]

theorem isBlank_of_isOneOf (h : (ls.all fun l => (letterVariants.lookup l).isNone && !isBlank l) = true)
    (hc : isOneOf ls c = true) : isBlank c = false := by
  obtain ⟨l, hl, hlc⟩ := List.any_eq_true.mp hc
  have hplain := List.all_eq_true.mp h l hl
  rw [Bool.and_eq_true, Option.isNone_iff_eq_none, Bool.not_eq_true'] at hplain
  exact isBlank_of_sameLetter hplain.1 hplain.2 hlc

theorem isDecimalDigit_of_isOneOf (h : (ls.all fun l => (letterVariants.lookup l).isNone && !isDecimalDigit l) = true)
    (hc : isOneOf ls c = true) : isDecimalDigit c = false := by
  obtain ⟨l, hl, hlc⟩ := List.any_eq_true.mp hc
  have hplain := List.all_eq_true.mp h l hl
  rw [Bool.and_eq_true, Option.isNone_iff_eq_none, Bool.not_eq_true'] at hplain
  by_contra hdigit
  rw [Bool.not_eq_false] at hdigit
  simp [sameLetter_of_isDecimalDigit hplain.1 hplain.2 hdigit] at hlc

/-! ## Characters of words -/

/-- The equivalents of Latin letters outside ASCII. -/
def variantLetters : Text := ['İ', 'ı', '\u212a', 'ſ']

/-- A Latin letter is one of A to Z, in either case, or an equivalent outside ASCII. -/
theorem isLatinLetter_cases (h : isLatinLetter c = true) :
    (∃ k < 26, c.toNat = 65 + k ∨ c.toNat = 97 + k) ∨ c ∈ variantLetters := by
  rw [isLatinLetter, Bool.or_eq_true] at h
  rcases h with h | h
  · rcases (Bool.or_eq_true _ _).mp h with h | h
    · have ⟨hlow, hhigh⟩ : 65 ≤ c.toNat ∧ c.toNat ≤ 90 := of_decide_eq_true h
      exact .inl ⟨c.toNat - 65, by omega, by omega⟩
    · obtain ⟨hlow, hhigh⟩ := (Bool.and_eq_true _ _).mp h
      have hlow : 97 ≤ c.toNat := of_decide_eq_true hlow
      have hhigh : c.toNat ≤ 122 := of_decide_eq_true hhigh
      exact .inl ⟨c.toNat - 97, by omega, by omega⟩
  · exact .inr (by simpa [letterVariants, variantLetters, or_assoc] using h)

theorem isWordChar_of_isLatinLetter (h : isLatinLetter c = true) : isWordChar c = true := by
  have hletters : ∀ k < 26, alphanumeric.holds (65 + k) = true ∧ alphanumeric.holds (97 + k) = true := by
    decide +kernel
  have hvariants : variantLetters.all isWordChar = true := by decide +kernel
  rcases isLatinLetter_cases h with ⟨k, hk, hc | hc⟩ | hc
  · rw [isWordChar, hc, (hletters k hk).1, Bool.or_true]
  · rw [isWordChar, hc, (hletters k hk).2, Bool.or_true]
  · exact List.all_eq_true.mp hvariants c hc

/-- A letter is no blank. -/
theorem isBlank_of_isLatinLetter (h : isLatinLetter c = true) : isBlank c = false := by
  have hletters : ∀ k < 26, blankRanges.holds (65 + k) = false ∧ blankRanges.holds (97 + k) = false := by decide
  have hvariants : (variantLetters.all fun c => !isBlank c) = true := by decide
  rcases isLatinLetter_cases h with ⟨k, hk, hc | hc⟩ | hc
  · rw [isBlank, hc, (hletters k hk).1]
  · rw [isBlank, hc, (hletters k hk).2]
  · simpa using List.all_eq_true.mp hvariants c hc

theorem isWordChar_of_isDecimalDigit (h : isDecimalDigit c = true) : isWordChar c = true := by
  have hruns : digitZeros.all (fun z => alphanumeric.any fun r => Nat.ble r.1 z && Nat.ble (z + 9) r.2) = true := by
    decide +kernel
  obtain ⟨z, hz, hlo, hhi⟩ := exists_digitZero h
  obtain ⟨r, hr, hrun⟩ := List.any_eq_true.mp (List.all_eq_true.mp hruns z hz)
  simp only [Bool.and_eq_true, Nat.ble_eq] at hrun
  rw [isWordChar, Ranges.holds_of_mem (by omega) (by omega) alphanumeric_sorted hr, Bool.or_true]

/-- A letter is no digit. -/
theorem isDecimalDigit_of_isLatinLetter (h : isLatinLetter c = true) : isDecimalDigit c = false := by
  by_contra hdigit
  rw [Bool.not_eq_false] at hdigit
  have hvariants : (variantLetters.all fun c => !isDecimalDigit c) = true := by decide +kernel
  rcases isLatinLetter_cases h with ⟨k, hk, hc⟩ | hc
  · have := toNat_of_isDecimalDigit hdigit
    omega
  · have hvariant := List.all_eq_true.mp hvariants c hc
    simp [hdigit] at hvariant

end Footcite
