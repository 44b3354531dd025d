import Footcite.Proofs.Csl.Items

/-!
# Every item accounted for

When no item is refused, each of them makes one entry of the library, in their order and under its own id, or one
warning (`Csl.Accounts`). The library is loaded unless two items that make a source have the same id, and in the same
way from a bare array, from an object that wraps it, and from an object that maps ids to items
(`Csl.library_accounts`).
-/

namespace Footcite.Csl

/-- The type of an item, blanks around it aside, is supported. -/
def Item.Supported (item : Item) : Prop := ((item.text? "type").bind kinds.get?).isSome = true

instance (item : Item) : Decidable item.Supported := inferInstanceAs (Decidable (_ = _))

/-- **What becomes of items**: each makes one entry under its id, or one warning. -/
inductive Accounts : List Item → Library → List Event → Prop
  | nil : Accounts [] [] []
  | entry {item : Item} {s : Source} {rest : List Item} {entries : Library} {warnings : List Event} :
      source? item = .ok (some s) → item.id? = some s.id → Accounts rest entries warnings →
      Accounts (item :: rest) ((s.id, s) :: entries) warnings
  | warning {item : Item} {rest : List Item} {entries : Library} {warnings : List Event} :
      source? item = .ok none → Accounts rest entries warnings →
      Accounts (item :: rest) entries (skipEvent item :: warnings)

/-- Two items of supported types have the same id. -/
def SharedId (items : List Item) : Prop :=
  ∃ (i j : Nat) (a b : Item) (id : Text), i < j ∧ items[i]? = some a ∧ items[j]? = some b ∧
    a.Supported ∧ b.Supported ∧ a.id? = some id ∧ b.id? = some id

theorem not_sharedId_iff {items : List Item} : ¬SharedId items ↔ items.Pairwise fun a b =>
    ¬(a.Supported ∧ b.Supported ∧ ∃ id, a.id? = some id ∧ b.id? = some id) := by
  rw [List.pairwise_iff_getElem]
  constructor
  · rintro hnone i j hi hj hij ⟨ha, hb, id, hida, hidb⟩
    exact hnone ⟨i, j, _, _, id, hij, List.getElem?_eq_getElem hi, List.getElem?_eq_getElem hj, ha, hb, hida, hidb⟩
  · rintro hapart ⟨i, j, a, b, id, hij, hi, hj, ha, hb, hida, hidb⟩
    obtain ⟨hi', rfl⟩ := List.getElem?_eq_some_iff.mp hi
    obtain ⟨hj', rfl⟩ := List.getElem?_eq_some_iff.mp hj
    exact hapart i j hi' hj' hij ⟨ha, hb, id, hida, hidb⟩

/-! ## Items that make a source -/

/-- **An item that is not refused makes a source** exactly when it has an id and a supported type. -/
theorem isSome_of_source? {item : Item} {s? : Option Source} (h : source? item = .ok s?) :
    s?.isSome = true ↔ (∃ id, item.id? = some id) ∧ item.Supported := by
  cases s? with
  | some s =>
    obtain ⟨kind, -, hid, hkind, -⟩ := source?_eq_some h
    simp only [Option.isSome_some, true_iff]
    exact ⟨⟨s.id, hid⟩, by rw [Item.Supported, hkind]; rfl⟩
  | none =>
    simp only [Option.isSome_none, Bool.false_eq_true, false_iff]
    rintro ⟨⟨id, hid⟩, hsupported⟩
    obtain ⟨kind, hkind⟩ := Option.isSome_iff_exists.mp hsupported
    rw [Item.id?] at hid
    unfold source? at h
    simp only [hid, hkind] at h
    obtain ⟨year, -, h⟩ := Except.bind_ok h
    obtain ⟨w, -, h⟩ := Except.bind_ok h
    cases h

namespace Accounts

variable {items : List Item} {entries : Library} {warnings : List Event}

/-- Items that are not refused are accounted for. -/
theorem exists_of_converts : ∀ {items : List Item}, (∀ item ∈ items, ∃ s?, source? item = .ok s?) →
    ∃ entries warnings, Accounts items entries warnings
  | [], _ => ⟨[], [], .nil⟩
  | item :: items, h => by
    obtain ⟨⟨s?, hitem⟩, hrest⟩ := List.forall_mem_cons.mp h
    obtain ⟨entries, warnings, haccounts⟩ := exists_of_converts hrest
    cases s? with
    | none => exact ⟨entries, _, .warning hitem haccounts⟩
    | some s =>
      obtain ⟨_, _, hid, -⟩ := source?_eq_some hitem
      exact ⟨_, warnings, .entry hitem hid haccounts⟩

/-- Entries and warnings are together as many as the items. -/
theorem length_eq (h : Accounts items entries warnings) : items.length = entries.length + warnings.length := by
  induction h with
  | nil => rfl
  | entry _ _ _ ih =>
    simp only [List.length_cons]
    omega
  | warning _ _ ih =>
    simp only [List.length_cons]
    omega

/-- An id is the key of an entry exactly when an item of a supported type has it. -/
theorem mem_keys (h : Accounts items entries warnings) {id : Text} :
    id ∈ Table.keys entries ↔ ∃ item ∈ items, item.Supported ∧ item.id? = some id := by
  induction h with
  | nil => simp [Table.keys]
  | @entry item s rest entries _ hitem hid _ ih =>
    have hsupported : item.Supported := ((isSome_of_source? hitem).mp rfl).2
    rw [Table.keys, List.map_cons, List.mem_cons, ← Table.keys, ih, List.exists_mem_cons_iff]
    refine or_congr_left ⟨?_, ?_⟩
    · rintro rfl
      exact ⟨hsupported, hid⟩
    · rintro ⟨-, hid'⟩
      exact Option.some.inj (hid'.symm.trans hid)
  | @warning item rest entries _ hitem _ ih =>
    rw [ih, List.exists_mem_cons_iff, or_iff_right]
    rintro ⟨hsupported, hid⟩
    have := (isSome_of_source? hitem).mpr ⟨⟨id, hid⟩, hsupported⟩
    cases this

/-- The entries have different keys unless two items share an id. -/
theorem nodup_keys_iff (h : Accounts items entries warnings) : (Table.keys entries).Nodup ↔ ¬SharedId items := by
  rw [not_sharedId_iff]
  induction h with
  | nil => simp [Table.keys]
  | @entry item s rest entries warnings hitem hid hrest ih =>
    have hsupported : item.Supported := ((isSome_of_source? hitem).mp rfl).2
    rw [Table.keys, List.map_cons, List.nodup_cons, ← Table.keys, hrest.mem_keys, List.pairwise_cons, ih]
    refine and_congr_left fun _ => ⟨?_, ?_⟩
    · rintro hnew b hb ⟨-, hb', id, hid', hidb⟩
      rw [hid, Option.some.injEq] at hid'
      exact hnew ⟨b, hb, hb', hid' ▸ hidb⟩
    · rintro hapart ⟨b, hb, hb', hidb⟩
      exact hapart b hb ⟨hsupported, hb', s.id, hid, hidb⟩
  | @warning item rest entries warnings hitem _ ih =>
    rw [ih, List.pairwise_cons]
    refine ⟨fun hrest => ⟨?_, hrest⟩, And.right⟩
    rintro b - ⟨hsupported, -, id, hid, -⟩
    have := (isSome_of_source? hitem).mpr ⟨⟨id, hid⟩, hsupported⟩
    cases this

/-! ## Adding items to a library -/

theorem outcome_addItems_entry {origin : Text} {item : Item} {s : Source} (h : source? item = .ok (some s))
    {l : Library} (hnew : s.id ∉ Table.keys l) (rest : List Item) (log : List Event) :
    outcome (addItems origin l (item :: rest)) log = outcome (addItems origin (l ++ [(s.id, s)]) rest) log := by
  rw [addItems, outcome_bind, outcome_liftM, h]
  simp only [Table.get?_eq_none_iff.mpr hnew, Table.set_of_not_mem hnew]
  rfl

theorem outcome_addItems_warning {origin : Text} {item : Item} (h : source? item = .ok none) (l : Library)
    (rest : List Item) (log : List Event) :
    outcome (addItems origin l (item :: rest)) log = outcome (addItems origin l rest) (log ++ [skipEvent item]) := by
  rw [addItems, outcome_bind, outcome_liftM, h]
  rfl

/-- **Items are added** when their ids differ and none of them is taken. -/
theorem gives_addItems {origin : Text} (h : Accounts items entries warnings) :
    ∀ {l : Library} {log : List Event}, (Table.keys (l ++ entries)).Nodup →
      Gives (addItems origin l items) log (l ++ entries) (log ++ warnings) := by
  induction h with
  | nil =>
    intro l log _
    simp [addItems]
  | @entry item s rest entries warnings hitem _ _ ih =>
    intro l log hnodup
    have hnew : s.id ∉ Table.keys l := by
      rw [Table.keys, List.map_append, List.nodup_append] at hnodup
      intro hmem
      exact hnodup.2.2 s.id hmem s.id List.mem_cons_self rfl
    rw [List.append_cons] at hnodup ⊢
    rw [Gives, outcome_addItems_entry hitem hnew]
    exact ih hnodup
  | @warning item rest entries warnings hitem _ ih =>
    intro l log hnodup
    have hrest : Gives (addItems origin l rest) (log ++ [skipEvent item]) (l ++ entries)
        (log ++ [skipEvent item] ++ warnings) := ih hnodup
    rw [List.append_assoc] at hrest
    rw [Gives, outcome_addItems_warning hitem]
    exact hrest

/-- **Items are refused** when an id comes twice. -/
theorem addItems_taken {origin : Text} (h : Accounts items entries warnings) :
    ∀ {l : Library} {log : List Event}, (Table.keys l).Nodup → ¬(Table.keys (l ++ entries)).Nodup →
      ∃ id log', outcome (addItems origin l items) log = (.error (.unloadable origin (.duplicateId id)), log') := by
  induction h with
  | nil =>
    intro l log hl htwice
    rw [List.append_nil] at htwice
    exact absurd hl htwice
  | @entry item s rest entries warnings hitem _ _ ih =>
    intro l log hl htwice
    by_cases hnew : s.id ∈ Table.keys l
    · have htaken : (l.get? s.id).isSome = true := by
        rw [Option.isSome_iff_ne_none]
        exact fun hnone => Table.get?_eq_none_iff.mp hnone hnew
      rw [addItems, outcome_bind, outcome_liftM, hitem]
      simp only [htaken, if_true]
      exact ⟨s.id, log, rfl⟩
    · have hset := Table.nodup_keys_set hl s.id s
      rw [Table.set_of_not_mem hnew] at hset
      rw [List.append_cons] at htwice
      rw [outcome_addItems_entry hitem hnew]
      exact ih hset htwice
  | @warning item rest entries warnings hitem _ ih =>
    intro l log hl htwice
    rw [outcome_addItems_warning hitem]
    exact ih hl htwice

end Accounts

/-! ## The shapes of a library -/

/-- An object that wraps an array holds the items of that array. -/
theorem items_wrapped {ms : Item} {vs : List Json} (h : ms.get? "items" = some (.array vs)) :
    items (.object ms) = items (.array vs) := by
  have hwrapped : wrapped? ms = some vs := by
    simp only [wrapped?, wrappers, List.findSome?_cons, Item.member, h, Option.getD_some]
  simp only [items, hwrapped]

/-- An object that maps ids to items without ids holds these items with the ids. -/
theorem items_mapped {es : List (Text × Item)} (h : ∀ e ∈ es, Table.get? e.2 "id" = none) :
    items (.object (es.map fun e => (e.1, .object e.2))) =
      items (.array (es.map fun e => .object (Table.set e.2 "id" (.string e.1)))) := by
  have hwrapped : wrapped? (es.map fun e => (e.1, .object e.2)) = none := by
    rw [wrapped?, List.findSome?_eq_none_iff]
    intro name _
    cases hget : Table.get? (es.map fun e => (e.1, Json.object e.2)) name with
    | none => rw [Item.member, hget, Option.getD_none]
    | some v =>
      obtain ⟨e, -, he⟩ := List.mem_map.mp (Table.mem_of_get? hget)
      obtain ⟨-, rfl⟩ := Prod.mk.inj he
      rw [Item.member, hget, Option.getD_some]
  simp only [items, hwrapped]
  rw [keyedItems, objects, List.filterMap_map, List.filterMap_map]
  apply List.filterMap_congr
  intro e he
  show some (if (Table.get? e.2 "id").isSome = true then e.2 else Table.set e.2 "id" (.string e.1)) = _
  rw [h e he]
  rfl

/-- The items are all that a library is made of. -/
theorem library_eq {origin : Text} {v : Json} (hv : (∃ vs, v = .array vs) ∨ ∃ ms, v = .object ms) :
    library origin v = addItems origin [] (items v) >>= fun l =>
      Logging.note (.parsedLibrary l.length origin) >>= fun _ => pure l := by
  rcases hv with ⟨vs, rfl⟩ | ⟨ms, rfl⟩ <;> rfl

/-- **Every item is accounted for.** If no item is refused, an array or an object fails to be loaded exactly when two
items of supported types share an id. Otherwise each item makes one entry, in their order and under its own id, or one
warning. What an object wraps, or maps ids to, is loaded in the same way as a bare array of these items. -/
theorem library_accounts {origin : Text} {v : Json} (hv : (∃ vs, v = .array vs) ∨ ∃ ms, v = .object ms)
    (hconverts : ∀ item ∈ items v, ∃ s?, source? item = .ok s?) (log : List Event) :
    ((∃ fault log', outcome (library origin v) log = (.error (.unloadable origin fault), log')) ↔ SharedId (items v)) ∧
    (¬SharedId (items v) → ∃ entries warnings, Accounts (items v) entries warnings ∧
      (items v).length = entries.length + warnings.length ∧
      Gives (library origin v) log entries (log ++ warnings ++ [.parsedLibrary entries.length origin])) ∧
    (∀ (ms : Item) (vs : List Json), v = .object ms → ms.get? "items" = some (.array vs) →
      library origin v = library origin (.array vs)) ∧
    ∀ es : List (Text × Item), v = .object (es.map fun e => (e.1, .object e.2)) →
      (∀ e ∈ es, Table.get? e.2 "id" = none) →
      library origin v = library origin (.array (es.map fun e => .object (Table.set e.2 "id" (.string e.1)))) := by
  obtain ⟨entries, warnings, haccounts⟩ := Accounts.exists_of_converts hconverts
  have hgives (hnot : ¬SharedId (items v)) :
      Gives (library origin v) log entries (log ++ warnings ++ [.parsedLibrary entries.length origin]) := by
    have hadded : Gives (addItems origin [] (items v)) log entries (log ++ warnings) :=
      haccounts.gives_addItems (haccounts.nodup_keys_iff.mpr hnot)
    rw [library_eq hv, gives_bind]
    exact ⟨entries, log ++ warnings, hadded, by simp [Logging.note]⟩
  refine ⟨⟨fun ⟨fault, log', hfails⟩ => ?_, fun hshared => ?_⟩, fun hnot => ⟨entries, warnings, haccounts,
    haccounts.length_eq, hgives hnot⟩, ?_, ?_⟩
  · by_contra hnot
    have hloaded := hgives hnot
    rw [Gives, hfails] at hloaded
    cases hloaded
  · have htwice : ¬(Table.keys ([] ++ entries)).Nodup := fun hnodup => haccounts.nodup_keys_iff.mp hnodup hshared
    obtain ⟨id, log', hfails⟩ : ∃ id log', outcome (addItems origin [] (items v)) log =
        (.error (.unloadable origin (.duplicateId id)), log') := haccounts.addItems_taken .nil htwice
    refine ⟨.duplicateId id, log', ?_⟩
    rw [library_eq hv, outcome_bind, hfails]
  · rintro ms vs rfl hwrapped
    rw [library_eq hv, library_eq (.inl ⟨vs, rfl⟩), items_wrapped hwrapped]
  · rintro es rfl hnew
    rw [library_eq hv, library_eq (.inl ⟨_, rfl⟩), items_mapped hnew]

/-- An object that maps ids to items: one with an id of its own, one without, one of a type that is not supported, and
one that is no item. -/
def mappedItems : Json := .object [
  ("a", .object [("type", .string " book "), ("title", .string "A")]),
  ("b", .object [("id", .int 7), ("type", .string "legal_case")]),
  ("c", .object [("type", .string "webpage")]), ("d", .null)]

/-- Two books, the one with a number for its id and the other with that number in blanks. -/
def clashingItems : Json := .array [
  .object [("id", .int 7), ("type", .string "book")], .object [("id", .string " 7 "), ("type", .string "book")]]

/-- Two entries and a warning in the first case, and a failure in the second. -/
theorem library_accounts_mapped :
    (∃ entries warnings log', Accounts (items mappedItems) entries warnings ∧ entries.length + warnings.length = 3 ∧
      Gives (library "lib" mappedItems) [] entries log') ∧
    ∃ fault log', outcome (library "lib" clashingItems) [] = (.error (.unloadable "lib" fault), log') := by
  have hconverts (v : Json) (h : ((items v).all fun item => (source? item).isOk) = true) :
      ∀ item ∈ items v, ∃ s?, source? item = .ok s? := by
    intro item hitem
    have hok := List.all_eq_true.mp h item hitem
    cases hs : source? item with
    | ok s? => exact ⟨s?, rfl⟩
    | error e =>
      rw [hs] at hok
      cases hok
  constructor
  · obtain ⟨hfails, hloads, -⟩ := @library_accounts "lib" mappedItems (.inr ⟨_, rfl⟩)
      (hconverts _ (by decide +kernel)) []
    have hnot : ¬SharedId (items mappedItems) := by
      rw [← hfails]
      rintro ⟨fault, log', h⟩
      have hok : (outcome (library "lib" mappedItems) []).1.isOk = true := by decide +kernel
      rw [h] at hok
      cases hok
    obtain ⟨entries, warnings, haccounts, hlength, hgives⟩ := hloads hnot
    exact ⟨entries, warnings, _, haccounts, hlength.symm, hgives⟩
  · have hshared : SharedId (items clashingItems) :=
      ⟨0, 1, _, _, "7", by decide, rfl, rfl, by decide, by decide, by decide, by decide⟩
    exact (library_accounts (.inl ⟨_, rfl⟩) (hconverts _ (by decide +kernel)) []).1.mpr hshared

end Footcite.Csl
