import Footcite.Csl.Library
import Footcite.Files.Tree

/-!
# Journal tables in files

A table of abbreviations is written as an object that maps names to abbreviations, or as a list of objects with a name
and an abbreviation each; either may stand in an object under the name of `journals`. All shapes give one table
(`JournalTable.ofJson`).
-/

namespace Footcite.JournalTable

/-- The name and the abbreviation of an object in a list. -/
def listed? : Json → Option (Text × Text)
  | .object ms =>
    match Csl.Item.either ms "name" "full", Csl.Item.either ms "abbreviation" "short" with
    | .string name, .string short => if name.blank then none else some (name.trim, short.trim)
    | _, _ => none
  | _ => none

/-- The name and the abbreviation of a member of an object. -/
def mapped? : Text × Json → Option (Text × Text)
  | (name, .string short) => if name.blank then none else some (name.trim, short.trim)
  | _ => none

/-- The value that holds the table. -/
def unwrapped (v : Json) : Json :=
  match v with
  | .object ms => match Csl.Item.member ms "journals" with
    | .object inner => .object inner
    | .array inner => .array inner
    | _ => v
  | _ => v

/-- The table of a value; a value of another shape has an empty one. -/
def ofJson (v : Json) : Table Text :=
  match unwrapped v with
  | .array vs => Table.ofEntries (vs.filterMap listed?)
  | .object ms => Table.ofEntries (ms.filterMap mapped?)
  | _ => []

/-- Loads the table of a user. -/
def load (tree : FileTree) (p : Path) : Logging (Table Text) := do
  let v ← tree.json p
  match v with
  | .object _ | .array _ => do
    let table := ofJson v
    Logging.note (.loadedJournals table.length p.text)
    pure table
  | _ => throw (.unloadable p.text .notATable)

/-- Loads a table that takes the place of the bundled one. -/
def loadBundled (tree : FileTree) (p : Path) : Except Failure (Table Text) := ofJson <$> tree.json p

/-- The table that a user starts from. -/
def starter : Json := .object [("Full Journal Name", .string "Abbreviated J. Name")]

/-- Writes the table that a user starts from; a file that is there is left alone. -/
def writeStarter (tree : FileTree) (p : Path) : Except Failure FileTree := do
  if ← tree.has p then throw (.unloadable p.text .alreadyThere)
  else tree.write p (starter.pretty ++ ['\n'])

end Footcite.JournalTable
