import Footcite.Proofs.Numbering.Ledger

/-!
# Tables in the order of their keys

Texts are totally ordered by the code points of their characters (`Text.le_total`, `Text.le_trans`). A table whose keys
are different is brought into strictly ascending order (`Table.ascending_sorted`) and answers as before
(`Table.mem_sorted`).
-/

namespace Footcite

/-! ## The order of texts -/

namespace Text

theorem le_cons_self (c : Char) (t u : Text) : le (c :: t) (c :: u) = le t u := by simp [le]

theorem le_cons_of_ne {c d : Char} (h : c ≠ d) (t u : Text) : le (c :: t) (d :: u) = decide (c.toNat < d.toNat) := by
  simp [le, h]

/-- Of two texts one comes first. -/
theorem le_total : ∀ t u : Text, (le t u || le u t) = true
  | [], _ => rfl
  | _ :: _, [] => rfl
  | c :: t, d :: u => by
    by_cases hcd : c = d
    · subst hcd
      rw [le_cons_self, le_cons_self]
      exact le_total t u
    · have hne : c.toNat ≠ d.toNat := fun h => hcd (Char.toNat_inj.mp h)
      rw [le_cons_of_ne hcd, le_cons_of_ne (Ne.symm hcd), Bool.or_eq_true, decide_eq_true_eq, decide_eq_true_eq]
      omega

/-- What comes before a text comes before all that come after it. -/
theorem le_trans : ∀ t u v : Text, le t u = true → le u v = true → le t v = true
  | [], _, _, _, _ => rfl
  | _ :: _, [], _, h, _ => by cases h
  | _ :: _, _ :: _, [], _, h => by cases h
  | c :: t, d :: u, e :: v, htu, huv => by
    by_cases hcd : c = d
    · subst hcd
      rw [le_cons_self] at htu
      by_cases hce : c = e
      · subst hce
        rw [le_cons_self] at huv ⊢
        exact le_trans t u v htu huv
      · rw [le_cons_of_ne hce] at huv ⊢
        exact huv
    · rw [le_cons_of_ne hcd, decide_eq_true_eq] at htu
      have hlt : c.toNat < e.toNat := by
        by_cases hde : d = e
        · rwa [← hde]
        · rw [le_cons_of_ne hde, decide_eq_true_eq] at huv
          omega
      have hce : c ≠ e := by
        rintro rfl
        omega
      rw [le_cons_of_ne hce, decide_eq_true_eq]
      exact hlt

end Text

/-! ## Sorted tables -/

namespace Table

variable {α β : Type}

/-- The keys of the table are different, and each comes before the next. -/
def Ascending (t : Table α) : Prop := t.keys.Pairwise fun k k' => Text.le k k' = true ∧ k ≠ k'

instance (t : Table α) : Decidable t.Ascending := inferInstanceAs (Decidable (List.Pairwise _ _))

theorem keys_mapValues (f : α → β) (t : Table α) : (t.mapValues f).keys = t.keys := by
  simp [keys, mapValues, Function.comp_def]

theorem mem_mapValues {f : α → β} {t : Table α} {key : Text} {v : β} :
    (key, v) ∈ t.mapValues f ↔ ∃ a, (key, a) ∈ t ∧ f a = v := by
  simp [mapValues]

/-- In a table with different keys the answer at a key is the value that stands there. -/
theorem get?_of_mem {t : Table α} (h : t.keys.Nodup) {key : Text} {v : α} (hmem : (key, v) ∈ t) :
    t.get? key = some v := by
  induction t with
  | nil => cases hmem
  | cons e t ih =>
    obtain ⟨k, w⟩ := e
    obtain ⟨hnew, ht⟩ := List.nodup_cons.mp h
    rw [get?_cons]
    rcases List.mem_cons.mp hmem with heq | hrest
    · obtain ⟨rfl, rfl⟩ := Prod.mk.inj heq
      rw [if_pos rfl]
    · have hkey : key ∈ t.map Prod.fst := List.mem_map_of_mem hrest
      have hne : k ≠ key := fun hk => hnew (hk ▸ hkey)
      rw [if_neg hne]
      exact ih ht hrest

/-- Sorting moves entries only. -/
theorem mem_sorted {t : Table α} {e : Text × α} : e ∈ t.sorted ↔ e ∈ t := (List.mergeSort_perm t _).mem_iff

theorem mem_keys_sorted {t : Table α} {key : Text} : key ∈ t.sorted.keys ↔ key ∈ t.keys :=
  ((List.mergeSort_perm t _).map Prod.fst).mem_iff

/-- **A table with different keys is sorted** into strictly ascending order. -/
theorem ascending_sorted {t : Table α} (h : t.keys.Nodup) : t.sorted.Ascending := by
  have hsorted : t.sorted.Pairwise fun a b => Text.le a.1 b.1 = true :=
    List.pairwise_mergeSort (fun a b c => Text.le_trans a.1 b.1 c.1) (fun a b => Text.le_total a.1 b.1) t
  have hnodup : t.sorted.keys.Nodup := ((List.mergeSort_perm t _).map Prod.fst).nodup_iff.mpr h
  have hkeys : t.sorted.keys.Pairwise fun k k' => Text.le k k' = true := List.pairwise_map.mpr hsorted
  exact hkeys.and hnodup

end Table

end Footcite
