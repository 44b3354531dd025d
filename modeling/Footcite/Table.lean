import Footcite.Text.Basic

/-!
# Tables

A table keeps its entries in the order in which their keys first came. Setting a key that is present replaces the
value in place, so each key occurs once.
-/

namespace Footcite

/-- Keys with their values, in the order of first insertion. -/
abbrev Table (α : Type) := List (Text × α)

namespace Table

variable {α β : Type}

/-- The value of a key. -/
def get? : Table α → Text → Option α
  | [], _ => none
  | (k, v) :: rest, key => if k = key then some v else get? rest key

/-- Sets a key, in its place if it is present and at the end if not. -/
def set : Table α → Text → α → Table α
  | [], key, value => [(key, value)]
  | (k, v) :: rest, key, value => if k = key then (k, value) :: rest else (k, v) :: set rest key value

/-- The table of a list of entries; of two with one key the later value counts, in the place of the earlier. -/
def ofEntries (entries : List (Text × α)) : Table α := entries.foldl (fun t e => t.set e.1 e.2) []

/-- A table written out in literals. -/
def ofStrings (entries : List (String × String)) : Table Text := entries.map fun (k, v) => (k.toList, v.toList)

/-- The keys in order. -/
def keys (t : Table α) : List Text := t.map Prod.fst

/-- Applies a function to each value. -/
def mapValues (f : α → β) (t : Table α) : Table β := t.map fun (k, v) => (k, f v)

/-- Changes the value of a key, if it is present. -/
def update (t : Table α) (key : Text) (f : α → α) : Table α :=
  match t.get? key with
  | some v => t.set key (f v)
  | none => t

/-- The entries in ascending order of their keys. -/
def sorted (t : Table α) : Table α := t.mergeSort fun a b => Text.le a.1 b.1

end Table

end Footcite
