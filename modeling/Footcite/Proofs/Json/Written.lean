import Footcite.Json.Printer
import Footcite.Json.Reader
import Footcite.Proofs.Table
import Mathlib.Data.List.TakeDrop
import Mathlib.Data.List.TakeWhile

/-!
# Values that can be written

A value can be written if no whole number in it has too many digits (`Json.writable`). So it is for an array if it is for
its items (`Json.writable_array`), and for an object if it is for its members (`Json.writable_object`). Whatever is read
can be written again, for a numeral with too many digits is refused (`Json.writable_of_read`).
-/

namespace Footcite

namespace Json

/-! ## Arrays and objects -/

theorem writable_array {vs : List Json} : (array vs).writable = true ↔ ∀ v ∈ vs, v.writable = true := by
  rw [writable]
  induction vs with
  | nil => simp [writableItems]
  | cons v vs ih => simp [writableItems, ih]

theorem writable_object {ms : List (Text × Json)} :
    (object ms).writable = true ↔ ∀ key v, (key, v) ∈ ms → v.writable = true := by
  rw [writable]
  induction ms with
  | nil => simp [writableMembers]
  | cons m ms ih => simp [writableMembers, ih, Prod.ext_iff, or_imp, forall_and]

/-! ## Numbers that are read -/

/-- Digits stand for a number below the power of ten with so many digits. -/
theorem ofDigits_lt {t : Text} (h : ∀ c ∈ t, c.isDigit = true) : ofDigits t < Nat.pow 10 t.length := by
  induction t using List.reverseRecOn with
  | nil => simp [ofDigits]
  | append_singleton t c ih =>
    obtain ⟨ht, hc⟩ := List.forall_mem_append.mp h
    have hdigit : c.toNat - '0'.toNat ≤ 9 := by
      have hc := hc c List.mem_cons_self
      simp only [Char.isDigit, Bool.and_eq_true, decide_eq_true_eq] at hc
      have hlow : c.toNat ≤ 57 := hc.2
      have hzero : '0'.toNat = 48 := rfl
      omega
    have ih := ih ht
    simp only [ofDigits, List.foldl_append, List.foldl_cons, List.foldl_nil, List.length_append, List.length_singleton,
      Nat.pow_eq, Nat.pow_succ] at ih ⊢
    omega

/-- No more digits than some stand for a number below the power of ten with so many. -/
theorem ofDigits_lt_of_length_le {t : Text} {k : Nat} (h : ∀ c ∈ t, c.isDigit = true) (hk : t.length ≤ k) :
    ofDigits t < Nat.pow 10 k := Nat.lt_of_lt_of_le (ofDigits_lt h) (Nat.pow_le_pow_right (by decide) hk)

/-- The digits at the front of a text are digits. -/
theorem isDigit_of_mem_digits {t : Text} {c : Char} (h : c ∈ (digits t).1) : c.isDigit = true := by
  rw [digits, List.span_eq_takeWhile_dropWhile] at h
  exact List.mem_takeWhile_imp h

/-- The whole part of a numeral has digits only. -/
theorem isDigit_of_numeral? {t r : Text} {n : Numeral} (h : numeral? t = some (n, r)) :
    ∀ c ∈ n.whole, c.isDigit = true := by
  simp only [numeral?] at h
  split at h
  · cases h
    intro c hc
    rw [List.mem_singleton.mp hc]
    rfl
  · split at h
    all_goals
      split at h
      · cases h
      · cases h
        exact fun c hc => isDigit_of_mem_digits hc

/-- A numeral is read as a value that can be written. -/
theorem Numeral.writable_value {n : Numeral} {v : Json} (hdigits : ∀ c ∈ n.whole, c.isDigit = true)
    (h : n.value = .ok v) : v.writable = true := by
  unfold value at h
  split at h
  · split at h
    · cases h
    · next hshort =>
      have hlt := ofDigits_lt_of_length_le hdigits (Nat.not_lt.mp hshort)
      cases h
      rw [writable, Footcite.Numeral.fits_iff]
      split
      · rw [Int.natAbs_neg]
        exact hlt
      · exact hlt
  · cases h
    rw [writable]

/-- A word or a number is read as a value that can be written. -/
theorem writable_of_atom {t r : Text} {v : Json} (h : atom t = .ok (v, r)) : v.writable = true := by
  unfold atom at h
  split at h
  · next w hw =>
    cases h
    obtain ⟨⟨word, v'⟩, hmem, hword⟩ := List.exists_of_findSome?_eq_some hw
    obtain ⟨_, -, he⟩ := Option.map_eq_some_iff.mp hword
    cases he
    have hwords : ∀ m ∈ words, m.2.writable = true := by decide
    exact hwords _ hmem
  · split at h
    · next n rest hn =>
      cases hv : n.value with
      | error e =>
        rw [hv] at h
        cases h
      | ok v' =>
        rw [hv] at h
        cases h
        exact Numeral.writable_value (isDigit_of_numeral? hn) hv
    · cases h

/-! ## Values that are read -/

/-- What a reading gives that was made of another. -/
theorem exists_of_map_ok {α β : Type} {x : Reading α} {f : α × Text → β × Text} {b : β × Text}
    (h : x.map f = .ok b) : ∃ a, x = .ok a ∧ f a = b := by
  cases x with
  | error e => cases h
  | ok a =>
    cases h
    exact ⟨a, rfl, rfl⟩

mutual

theorem writable_of_value : ∀ {n : Nat} {t r : Text} {v : Json}, value n t = .ok (v, r) → v.writable = true
  | 0, _, _, _, h => by cases h
  | n + 1, t, r, v, h => by
    unfold value at h
    split at h
    · cases h
    · obtain ⟨_, -, he⟩ := exists_of_map_ok h
      cases he
      rw [writable]
    · split at h
      · cases h
        rw [writable, writableMembers]
      · obtain ⟨⟨ms, _⟩, hms, he⟩ := exists_of_map_ok h
        cases he
        rw [writable_object]
        intro key v hv
        obtain ⟨key', hmem⟩ := Table.mem_ofEntries ms hv
        exact writable_of_members hms key' v hmem
    · split at h
      · cases h
        rw [writable, writableItems]
      · obtain ⟨⟨vs, _⟩, hvs, he⟩ := exists_of_map_ok h
        cases he
        exact writable_array.mpr (writable_of_items hvs)
    · exact writable_of_atom h

theorem writable_of_items : ∀ {n : Nat} {t r : Text} {vs : List Json}, items n t = .ok (vs, r) →
    ∀ v ∈ vs, v.writable = true
  | 0, _, _, _, h => by cases h
  | n + 1, t, r, vs, h => by
    unfold items at h
    split at h
    · cases h
    · next v rest hv =>
      have hfirst := writable_of_value hv
      split at h
      · cases h
        exact List.forall_mem_singleton.mpr hfirst
      · obtain ⟨⟨vs', _⟩, hvs, he⟩ := exists_of_map_ok h
        cases he
        exact List.forall_mem_cons.mpr ⟨hfirst, writable_of_items hvs⟩
      · cases h

theorem writable_of_members : ∀ {n : Nat} {t r : Text} {ms : List (Text × Json)}, members n t = .ok (ms, r) →
    ∀ key v, (key, v) ∈ ms → v.writable = true
  | 0, _, _, _, h => by cases h
  | n + 1, t, r, ms, h => by
    unfold members at h
    split at h
    · cases h
    · split at h
      · cases h
      · split at h
        · split at h
          · cases h
          · next v rest hv =>
            have hfirst := writable_of_value hv
            split at h
            · cases h
              rintro key v hmem
              cases List.mem_singleton.mp hmem
              exact hfirst
            · obtain ⟨⟨ms', _⟩, hms, he⟩ := exists_of_map_ok h
              cases he
              rintro key v hmem
              rcases List.mem_cons.mp hmem with hmem | hmem
              · cases hmem
                exact hfirst
              · exact writable_of_members hms key v hmem
            · cases h
        · cases h
    · cases h

end

/-- **What is read can be written.** -/
theorem writable_of_read {t : Text} {v : Json} (h : read t = .ok v) : v.writable = true := by
  simp only [read] at h
  split at h
  · cases h
  · split at h
    · split at h <;> cases h
    · next w rest hw =>
      split at h
      · cases h
      · split at h
        · cases h
        · cases h
          exact writable_of_value hw

end Json

end Footcite
