import Footcite.Csl.Library
import Footcite.Proofs.Gives
import Mathlib.Data.List.Induction

/-!
# What a table answers

A table is known by what `Table.get?` answers, and each way of changing one is described by its effect on these answers
(`Table.get?_set`, `Table.get?_update`, `Table.get?_ofEntries`). Its keys keep the order in which they first came
(`Table.keys_set`), and entries with different keys are a table as they stand (`Table.ofEntries_of_nodup`).

A library is keyed by the ids of its sources (`Library.Keyed`). So is every library that is read from CSL-JSON
(`Csl.library_keyed`), and every table of sources that are entered under their ids (`Library.keyed_ofEntries`).
-/

namespace Footcite

namespace Table

variable {α : Type}

@[simp] theorem get?_nil (key : Text) : get? ([] : Table α) key = none := rfl

@[simp] theorem get?_cons (k key : Text) (v : α) (t : Table α) :
    get? ((k, v) :: t) key = if k = key then some v else t.get? key := rfl

/-- Setting a key changes the answer at that key only. -/
theorem get?_set (t : Table α) (k key : Text) (v : α) :
    (t.set k v).get? key = if k = key then some v else t.get? key := by
  induction t with
  | nil => rfl
  | cons e t ih =>
    obtain ⟨k', v'⟩ := e
    by_cases hk : k' = k
    · subst hk
      by_cases h : k' = key <;> simp [set, h]
    · by_cases h : k' = key
      · subst h
        simp [set, hk, Ne.symm hk]
      · simp [set, hk, h, ih]

/-- What stands in a table after a value was set stood there, or is this value. -/
theorem mem_set {key k : Text} {v w : α} : ∀ {t : Table α}, (k, v) ∈ t.set key w → (k, v) ∈ t ∨ v = w
  | [], h => .inr (Prod.mk.inj (List.mem_singleton.mp h)).2
  | (k', v') :: rest, h => by
    unfold set at h
    split at h
    · rcases List.mem_cons.mp h with h | h
      · exact .inr (Prod.mk.inj h).2
      · exact .inl (List.mem_cons_of_mem _ h)
    · rcases List.mem_cons.mp h with h | h
      · exact .inl (h ▸ List.mem_cons_self)
      · exact (mem_set h).imp_left (List.mem_cons_of_mem _)

/-- What is set twice is what was set last. -/
theorem set_set : ∀ (t : Table α) (key : Text) (v v' : α), (t.set key v).set key v' = t.set key v'
  | [], key, v, v' => by simp [set]
  | (k, w) :: rest, key, v, v' => by
    by_cases hk : k = key
    · simp [set, hk]
    · simp [set, hk, set_set rest key v v']

/-- Changing the value of a key changes the answer at that key only. -/
theorem get?_update (t : Table α) (k key : Text) (f : α → α) :
    (t.update k f).get? key = if k = key then (t.get? key).map f else t.get? key := by
  unfold update
  by_cases h : k = key
  · subst h
    cases hv : t.get? k <;> simp [get?_set, hv]
  · cases hv : t.get? k <;> simp [get?_set, h]

/-- A value that is answered stands in the table with its key. -/
theorem mem_of_get? : ∀ {t : Table α} {key : Text} {value : α}, t.get? key = some value → (key, value) ∈ t
  | [], _, _, h => by cases h
  | (k, v) :: t, key, value, h => by
    rw [get?_cons] at h
    split at h
    · next hk =>
      cases h
      exact hk ▸ List.mem_cons_self
    · exact List.mem_cons_of_mem _ (mem_of_get? h)

/-- A key has no value exactly when it is not in the table. -/
theorem get?_eq_none_iff {t : Table α} {key : Text} : t.get? key = none ↔ key ∉ t.keys := by
  induction t with
  | nil => simp [keys]
  | cons e t ih =>
    obtain ⟨k, v⟩ := e
    rw [get?_cons, keys, List.map_cons, List.mem_cons, not_or, ← keys, ← ih]
    by_cases hk : k = key
    · simp [hk]
    · simp [hk, Ne.symm hk]

/-! ## Keys -/

/-- A new key goes to the end. -/
theorem set_of_not_mem {t : Table α} {key : Text} (h : key ∉ t.keys) (value : α) :
    t.set key value = t ++ [(key, value)] := by
  induction t with
  | nil => rfl
  | cons e t ih =>
    obtain ⟨k, v⟩ := e
    obtain ⟨hk, ht⟩ := not_or.mp (List.mem_cons.not.mp h)
    rw [set, if_neg (Ne.symm hk), ih ht, List.cons_append]

/-- Setting a key that is there leaves the keys as they are. -/
theorem keys_set_of_mem {t : Table α} {key : Text} (h : key ∈ t.keys) (value : α) :
    (t.set key value).keys = t.keys := by
  induction t with
  | nil => cases h
  | cons e t ih =>
    obtain ⟨k, v⟩ := e
    by_cases hk : k = key
    · simp [set, keys, hk]
    · have ht : key ∈ keys t := (List.mem_cons.mp h).resolve_left (Ne.symm hk)
      simpa [set, keys, hk] using ih ht

/-- **The keys of a table** keep their order, and a new one comes last. -/
theorem keys_set (t : Table α) (key : Text) (value : α) :
    (t.set key value).keys = if key ∈ t.keys then t.keys else t.keys ++ [key] := by
  split
  · next h => exact keys_set_of_mem h value
  · next h => rw [set_of_not_mem h, keys, List.map_append, ← keys, List.map_singleton]

theorem nodup_keys_set {t : Table α} (h : t.keys.Nodup) (key : Text) (value : α) : (t.set key value).keys.Nodup := by
  rw [keys_set]
  split
  · exact h
  · next hnew =>
    rw [List.nodup_append]
    refine ⟨h, by simp, ?_⟩
    rintro k hk _ hkey rfl
    rw [List.mem_singleton.mp hkey] at hk
    exact hnew hk

theorem ofEntries_concat (es : List (Text × α)) (e : Text × α) :
    ofEntries (es ++ [e]) = (ofEntries es).set e.1 e.2 := by
  simp [ofEntries, List.foldl_append]

/-- The values of a table of entries are among those of the entries. -/
theorem mem_ofEntries {k : Text} {v : α} (es : List (Text × α)) (h : (k, v) ∈ ofEntries es) :
    ∃ key, (key, v) ∈ es := by
  induction es using List.reverseRecOn with
  | nil => cases h
  | append_singleton es e ih =>
    rw [ofEntries_concat] at h
    rcases mem_set h with h | rfl
    · obtain ⟨key, hkey⟩ := ih h
      exact ⟨key, List.mem_append_left _ hkey⟩
    · exact ⟨e.1, List.mem_append_right _ List.mem_cons_self⟩

/-- **What a table of entries answers**: the value of an entry with the key, if there is one. -/
theorem get?_ofEntries (es : List (Text × α)) (key : Text) :
    (∃ v, (ofEntries es).get? key = some v ∧ (key, v) ∈ es) ∨ (ofEntries es).get? key = none ∧ key ∉ keys es := by
  induction es using List.reverseRecOn with
  | nil => exact .inr ⟨rfl, List.not_mem_nil⟩
  | append_singleton es e ih =>
    rw [ofEntries_concat, get?_set]
    by_cases hkey : e.1 = key
    · exact .inl ⟨e.2, by simp [hkey], by simp [← hkey]⟩
    · rw [if_neg hkey]
      rcases ih with ⟨v, hv, hmem⟩ | ⟨hnone, hkeys⟩
      · exact .inl ⟨v, hv, List.mem_append_left _ hmem⟩
      · refine .inr ⟨hnone, ?_⟩
        simpa [keys, Ne.symm hkey] using hkeys

/-- **Entries with different keys** are a table as they stand. -/
theorem ofEntries_of_nodup {es : List (Text × α)} (h : (keys es).Nodup) : ofEntries es = es := by
  induction es using List.reverseRecOn with
  | nil => rfl
  | append_singleton es e ih =>
    rw [keys, List.map_append, List.nodup_append] at h
    obtain ⟨hes, -, hnew⟩ := h
    rw [ofEntries_concat, ih hes, set_of_not_mem]
    intro hmem
    exact hnew e.1 hmem e.1 (List.mem_singleton_self _) rfl

end Table

/-! ## Libraries -/

/-- Every source stands under its own id. -/
def Library.Keyed (library : Library) : Prop := ∀ id s, library.get? id = some s → s.id = id

namespace Library

theorem keyed_nil : Keyed [] := by
  intro id s h
  cases h

/-- Entering a source under its id keeps a library keyed. -/
theorem Keyed.set {library : Library} (h : library.Keyed) (s : Source) : Keyed (library.set s.id s) := by
  intro id s' hs
  rw [Table.get?_set] at hs
  split at hs
  · next hid => cases hs; exact hid
  · exact h id s' hs

/-- Sources entered one after another under their ids. -/
theorem keyed_ofEntries (sources : List Source) : Keyed (Table.ofEntries (sources.map fun s => (s.id, s))) := by
  have step : ∀ (sources : List Source) (library : Library), library.Keyed →
      Keyed ((sources.map fun s => (s.id, s)).foldl (fun t e => t.set e.1 e.2) library) := by
    intro sources
    induction sources with
    | nil => exact fun _ h => h
    | cons s sources ih => exact fun _ h => ih _ (h.set s)
  exact step sources [] keyed_nil

end Library

/-- Reading items into a keyed library leaves it keyed. -/
theorem Csl.addItems_keyed {origin : Text} :
    ∀ {items : List Csl.Item} {library result : Library} {log log' : List Event}, library.Keyed →
      Gives (Csl.addItems origin library items) log result log' → result.Keyed
  | [], _, _, _, _, h, hr => by
    rw [Csl.addItems, gives_pure] at hr
    exact hr.1 ▸ h
  | item :: items, library, _, _, _, h, hr => by
    simp only [Csl.addItems, gives_bind, gives_liftM] at hr
    obtain ⟨s?, _, _, hr⟩ := hr
    cases s? with
    | none =>
      simp only [gives_bind] at hr
      obtain ⟨_, _, _, hr⟩ := hr
      exact Csl.addItems_keyed h hr
    | some s =>
      simp only at hr
      split at hr
      · exact absurd hr gives_throw
      · exact Csl.addItems_keyed (h.set s) hr

/-- Every library that is read from CSL-JSON is keyed. -/
theorem Csl.library_keyed {origin : Text} {v : Json} {result : Library} {log log' : List Event}
    (h : Gives (Csl.library origin v) log result log') : result.Keyed := by
  unfold Csl.library at h
  split at h
  · simp only [gives_bind, gives_pure] at h
    obtain ⟨library, _, hi, _, _, _, rfl, _⟩ := h
    exact Csl.addItems_keyed Library.keyed_nil hi
  · simp only [gives_bind, gives_pure] at h
    obtain ⟨library, _, hi, _, _, _, rfl, _⟩ := h
    exact Csl.addItems_keyed Library.keyed_nil hi
  · exact absurd h gives_throw

end Footcite
