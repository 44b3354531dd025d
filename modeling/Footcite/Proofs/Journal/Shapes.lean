import Footcite.Journal.Table
import Footcite.Proofs.Table
import Footcite.Proofs.Text.Blanks

/-!
# The shapes of a journal table

A table of abbreviations may be written as an object or as a list, and either may stand in a wrapper with a version
number (`JournalTable.Shape.write`, `JournalTable.wrap`). A file in any of these shapes is read as the same table, of
trimmed names and trimmed abbreviations in the order of the file, unless a name has the empty abbreviation: a list loses
such a name, since the abbreviation counts as one that is not given (`JournalTable.load_written`).
-/

namespace Footcite.JournalTable

/-- **Names with abbreviations that make a table**: no name is blank, and blanks around them aside no two are alike. -/
structure Listable (pairs : List (Text × Text)) : Prop where
  named : ∀ e ∈ pairs, e.1.blank = false
  apart : (pairs.map fun e => e.1.trim).Nodup

/-- A name and its abbreviation, without the blanks around them. -/
def trimmed (e : Text × Text) : Text × Text := (e.1.trim, e.2.trim)

/-- The shapes that a table may be written in. -/
inductive Shape
  /-- An object that maps names to abbreviations. -/
  | mapping
  /-- A list of objects with a name and an abbreviation each. -/
  | listing
  deriving Repr, DecidableEq

/-- Names and abbreviations in a shape. -/
def Shape.write (pairs : List (Text × Text)) : Shape → Json
  | mapping => .object (pairs.map fun e => (e.1, .string e.2))
  | listing => .array (pairs.map fun e => .object [("name", .string e.1), ("abbreviation", .string e.2)])

/-- A table in a wrapper. -/
def wrap (v : Json) : Json := .object [("version", .int 1), ("journals", v)]

/-- The names and abbreviations that are read from a shape. -/
def Shape.kept (pairs : List (Text × Text)) : Shape → List (Text × Text)
  | mapping => pairs
  | listing => pairs.filter fun e => !e.2.isEmpty

variable {pairs : List (Text × Text)} {shape : Shape}

/-! ## Entries -/

/-- An object in a list is read unless its abbreviation is empty. -/
theorem listed?_entry {name : Text} (short : Text) (h : name.blank = false) :
    listed? (.object [("name", .string name), ("abbreviation", .string short)]) =
      if short.isEmpty then none else some (name.trim, short.trim) := by
  have hne : name ≠ [] := by
    rintro rfl
    cases h
  have hname : Csl.Item.either [("name", .string name), ("abbreviation", .string short)] "name" "full" =
      .string name := by
    simp [Csl.Item.either, Csl.Item.member, Csl.filled, hne]
  have hshort : Csl.Item.either [("name", .string name), ("abbreviation", .string short)] "abbreviation" "short" =
      if short.isEmpty then .null else .string short := by
    by_cases hs : short = [] <;> simp [Csl.Item.either, Csl.Item.member, Csl.filled, hs]
  rw [listed?, hname, hshort]
  by_cases hs : short.isEmpty = true
  · rw [if_pos hs, if_pos hs]
  · rw [if_neg hs, if_neg hs]
    simp [h]

/-- The objects of a list that are read. -/
theorem filterMap_listed? : ∀ {pairs : List (Text × Text)}, (∀ e ∈ pairs, e.1.blank = false) →
    (pairs.map fun e => Json.object [("name", .string e.1), ("abbreviation", .string e.2)]).filterMap listed? =
      (pairs.filter fun e => !e.2.isEmpty).map trimmed
  | [], _ => rfl
  | e :: pairs, h => by
    obtain ⟨he, hpairs⟩ := List.forall_mem_cons.mp h
    rw [List.map_cons, List.filterMap_cons, listed?_entry e.2 he, filterMap_listed? hpairs, List.filter_cons]
    by_cases hs : e.2.isEmpty = true
    · simp [hs]
    · simp [hs, trimmed]

/-- The members of an object are all read. -/
theorem filterMap_mapped? (h : ∀ e ∈ pairs, e.1.blank = false) :
    (pairs.map fun e => (e.1, Json.string e.2)).filterMap mapped? = pairs.map trimmed := by
  rw [List.filterMap_map, ← List.filterMap_eq_map']
  apply List.filterMap_congr
  intro e he
  simp [mapped?, h e he, trimmed]

/-- What is read from a shape is a table as it stands. -/
theorem Shape.ofEntries_kept (h : Listable pairs) :
    Table.ofEntries ((shape.kept pairs).map trimmed) = (shape.kept pairs).map trimmed := by
  apply Table.ofEntries_of_nodup
  have hkeys : Table.keys ((shape.kept pairs).map trimmed) = (shape.kept pairs).map fun e => e.1.trim := by
    simp [Table.keys, trimmed, Function.comp_def]
  rw [hkeys]
  cases shape with
  | mapping => exact h.apart
  | listing => exact h.apart.sublist (List.filter_sublist.map _)

/-! ## Tables -/

/-- A table is not in a wrapper. -/
theorem unwrapped_write : unwrapped (shape.write pairs) = shape.write pairs := by
  cases shape with
  | listing => rfl
  | mapping =>
    -- A name may be that of the member which a wrapper holds its table in, but its abbreviation is no table.
    have hmember : Csl.Item.member (pairs.map fun e => (e.1, .string e.2)) "journals" = .null ∨
        ∃ short, Csl.Item.member (pairs.map fun e => (e.1, .string e.2)) "journals" = .string short := by
      cases hget : Table.get? (pairs.map fun e => (e.1, Json.string e.2)) "journals" with
      | none =>
        rw [Csl.Item.member, hget, Option.getD_none]
        exact .inl rfl
      | some v =>
        obtain ⟨e, -, he⟩ := List.mem_map.mp (Table.mem_of_get? hget)
        obtain ⟨-, rfl⟩ := Prod.mk.inj he
        rw [Csl.Item.member, hget, Option.getD_some]
        exact .inr ⟨e.2, rfl⟩
    rcases hmember with hmember | ⟨short, hmember⟩
    · simp only [Shape.write, unwrapped, hmember]
    · simp only [Shape.write, unwrapped, hmember]

theorem unwrapped_wrap : unwrapped (wrap (shape.write pairs)) = shape.write pairs := by
  cases shape <;> rfl

/-- **The table of a shape** has the names and abbreviations that are read from it, in their order. -/
theorem ofJson_write (h : Listable pairs) : ofJson (shape.write pairs) = (shape.kept pairs).map trimmed := by
  rw [ofJson, unwrapped_write, ← Shape.ofEntries_kept h]
  cases shape with
  | mapping => exact congrArg Table.ofEntries (filterMap_mapped? h.named)
  | listing => exact congrArg Table.ofEntries (filterMap_listed? h.named)

/-- A wrapper is no matter. -/
theorem ofJson_wrap : ofJson (wrap (shape.write pairs)) = ofJson (shape.write pairs) := by
  rw [ofJson, ofJson, unwrapped_wrap, unwrapped_write]

/-- A file is loaded as the table of its value. -/
theorem load_of_json {tree : FileTree} {p : Path} {v : Json} (hv : tree.json p = .ok v)
    (hshape : (∃ vs, v = .array vs) ∨ ∃ ms, v = .object ms) (log : List Event) :
    Gives (load tree p) log (ofJson v) (log ++ [.loadedJournals (ofJson v).length p.text]) := by
  rw [load, gives_bind]
  refine ⟨v, log, by rw [gives_liftM]; exact ⟨hv, rfl⟩, ?_⟩
  rcases hshape with ⟨vs, rfl⟩ | ⟨ms, rfl⟩ <;> simp [Logging.note]

/-- **A table means the same in every shape**: a file that holds it is loaded as the table of trimmed names and trimmed
abbreviations in their order, be it an object or a list, in a wrapper or not. Only a name whose abbreviation is empty is
lost in a list. -/
theorem load_written (h : Listable pairs) {v : Json} (hv : v = shape.write pairs ∨ v = wrap (shape.write pairs))
    {tree : FileTree} {p : Path} (hjson : tree.json p = .ok v) (log : List Event) :
    ∃ table, Gives (load tree p) log table (log ++ [.loadedJournals table.length p.text]) ∧
      loadBundled tree p = .ok table ∧ table = (shape.kept pairs).map trimmed ∧
      ((∀ e ∈ pairs, e.2 ≠ []) → table = pairs.map trimmed) := by
  have htable : ofJson v = (shape.kept pairs).map trimmed := by
    rcases hv with rfl | rfl
    · exact ofJson_write h
    · rw [ofJson_wrap, ofJson_write h]
  have hshape : (∃ vs, v = .array vs) ∨ ∃ ms, v = .object ms := by
    rcases hv with rfl | rfl
    · cases shape with
      | mapping => exact .inr ⟨_, rfl⟩
      | listing => exact .inl ⟨_, rfl⟩
    · exact .inr ⟨_, rfl⟩
  have hbundled : loadBundled tree p = .ok (ofJson v) := by rw [loadBundled, hjson]; rfl
  refine ⟨ofJson v, load_of_json hjson hshape log, hbundled, htable, fun hgiven => ?_⟩
  rw [htable]
  cases shape with
  | mapping => rfl
  | listing =>
    have hall : pairs.filter (fun e => !e.2.isEmpty) = pairs := by
      rw [List.filter_eq_self]
      intro e he
      simp [hgiven e he]
    rw [Shape.kept, hall]

/-- Two journals, one with an abbreviation of blanks only, and blanks around their names. -/
def twoJournals : List (Text × Text) := [(" Law Journal", " "), ("Reports ", "R. ")]

/-- They are loaded from a list in a wrapper. -/
theorem load_written_listing : ∃ (tree : FileTree) (log : List Event),
    tree.json (Path.ofText "j.json") = .ok (wrap (Shape.listing.write twoJournals)) ∧
    Gives (load tree (Path.ofText "j.json")) [] [("Law Journal".toList, "".toList), ("Reports", "R.")] log := by
  have hjson : FileTree.json [("j.json", .file (Utf8.encode (wrap (Shape.listing.write twoJournals)).pretty))]
      (Path.ofText "j.json") = .ok (wrap (Shape.listing.write twoJournals)) := by decide +kernel
  have h : Listable twoJournals := ⟨by decide, by decide⟩
  obtain ⟨table, hload, -, -, htable⟩ := load_written h (.inr rfl) hjson []
  obtain rfl := htable (by decide)
  exact ⟨_, _, hjson, hload⟩

/-- In a list an empty abbreviation counts as none, while an object keeps it. -/
theorem listing_loses_name : Listable [("Law Journal", "")] ∧
    ofJson (Shape.mapping.write [("Law Journal", "")]) = [("Law Journal".toList, "".toList)] ∧
    ofJson (Shape.listing.write [("Law Journal", "")]) = [] :=
  ⟨⟨by decide, by decide⟩, by decide, by decide⟩

end Footcite.JournalTable
