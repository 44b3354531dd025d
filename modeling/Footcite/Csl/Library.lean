import Footcite.Csl.Source
import Footcite.Log

/-!
# Libraries in CSL-JSON

A library is an array of items, an object that holds such an array, or an object that maps ids to items (`Csl.items`).
`Csl.library` makes sources of the items. An item that makes none is skipped with a warning; two sources with one id
are an error. What is said of values with numbers that are too long to be written (`Footcite.Csl.Value`) holds here too.
-/

namespace Footcite

/-- Work that goes into the log and may fail. -/
abbrev Logging := ExceptT Failure (StateM (List Event))

/-- Puts an event into the log. -/
def Logging.note (e : Event) : Logging Unit := modify (· ++ [e])

namespace Csl

/-- The objects among values. -/
def objects (vs : List Json) : List Item :=
  vs.filterMap fun
    | .object ms => some ms
    | _ => none

/-- The members that an object may hold its items in. -/
def wrappers : List Text := ["items", "references"]

/-- The array that an object holds its items in. -/
def wrapped? (ms : Item) : Option (List Json) :=
  wrappers.findSome? fun name => match ms.member name with
    | .array vs => some vs
    | _ => none

/-- The items of an object that maps ids to items; an item that has no id takes its key. -/
def keyedItems (ms : Item) : List Item :=
  ms.filterMap fun
    | (key, .object item) => some (if (Table.get? item "id").isSome then item else Table.set item "id" (.string key))
    | _ => none

/-- The items of a library. -/
def items : Json → List Item
  | .array vs => objects vs
  | .object ms => match wrapped? ms with
    | some vs => objects vs
    | none => keyedItems ms
  | _ => []

/-- The event of an item that is passed over. -/
def skipEvent (item : Item) : Event :=
  .skipped ((item.get? "id").elim "<no id>" Json.plain) (item.member "type").inner

/-- Adds the sources of items to a library. -/
def addItems (origin : Text) (library : Library) : List Item → Logging Library
  | [] => pure library
  | item :: rest => do
    match ← source? item with
    | none => do
      Logging.note (skipEvent item)
      addItems origin library rest
    | some s =>
      if (library.get? s.id).isSome then throw (.unloadable origin (.duplicateId s.id))
      else addItems origin (library.set s.id s) rest

/-- The library of a JSON value that comes from the origin. -/
def library (origin : Text) (v : Json) : Logging Library := do
  match v with
  | .array _ | .object _ => do
    let library ← addItems origin [] (items v)
    Logging.note (.parsedLibrary library.length origin)
    pure library
  | _ => throw (.unloadable origin .notALibrary)

end Csl

end Footcite
