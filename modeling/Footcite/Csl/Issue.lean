import Footcite.Csl.Library

/-!
# Checking a library

`Csl.check` lists what is wrong with the items of a library: ids that are missing, repeated or cannot be written in a
note, types that are missing or not supported, required fields that are missing, and lists of names that are
malformed. A fatal issue makes citations fail; the others are warnings.
-/

namespace Footcite.Csl

/-- Something wrong with a library, and where. -/
structure Issue where
  path : Text
  message : Text
  fatal : Bool := true
  deriving Repr, DecidableEq

/-- The fields that each type of item needs before it can be cited. -/
def requiredFields : Table (List Text) := [
  ("book", ["title"]),
  ("chapter", ["title", "container-title"]),
  ("article-journal", ["title", "container-title", "volume", "page"]),
  ("article", ["title", "container-title", "volume", "page"]),
  ("article-magazine", ["title", "container-title", "page"]),
  ("article-newspaper", ["title", "container-title", "page"]),
  ("manuscript", ["title"]),
  ("legal_case", ["title", "container-title", "volume", "page"])]

/-- An id that can be written in a note has neither blanks nor brackets and none of some signs. -/
def isWritableId (id : Text) : Bool := !id.isEmpty && id.all fun c => !isBlank c && !"[]@;$?".toList.contains c

/-- Whether a field has nothing in it. -/
def vacant : Json → Bool
  | .null => true
  | .string t => t.blank
  | .array vs => vs.isEmpty
  | _ => false

/-- Whether a name can be printed. -/
def isName : Json → Bool
  | .object n => filled (Item.member n "family") || filled (Item.member n "literal")
  | _ => false

/-- What is wrong with the names of a role. -/
def checkNames (path : Text) : Json → List Issue
  | .null => []
  | .array vs => vs.zipIdx.filterMap fun (v, i) =>
    if isName v then none else some ⟨path ++ "[" ++ Numeral.ofNat i ++ "]", "Name needs 'family' or 'literal'.", true⟩
  | _ => [⟨path, "Expected a list of names.", true⟩]

/-- The members that hold names. -/
def roles : List Text := ["author", "editor", "translator"]

/-- What is wrong with the fields of an item of a supported type. -/
def checkFields (path type : Text) (item : Item) : List Issue :=
  let missing := ((requiredFields.get? type).getD []).filter fun f => vacant (item.member f)
  let noShortName := type = "legal_case" && vacant (item.member "title-short")
  missing.map (fun f => ⟨path ++ "." ++ f, "Missing required field.", true⟩) ++
  (if noShortName then
    [⟨path ++ ".title-short", "No short case name; short forms will repeat the full name.", false⟩] else []) ++
  roles.flatMap fun role => checkNames (path ++ "." ++ role) (item.member role)

/-- What is wrong with the type of an item, or with its fields. -/
def checkType (path : Text) (item : Item) : List Issue :=
  match item.member "type" with
  | .string type =>
    if type.isEmpty then [⟨path ++ ".type", "Missing type.", true⟩]
    else if (kinds.get? type).isSome then checkFields path type item
    else [⟨path ++ ".type", "Unsupported type " ++ type.quoted ++ "; the entry will be skipped.", false⟩]
  | _ => [⟨path ++ ".type", "Missing type.", true⟩]

/-- What is wrong with an id; the table holds the places of the ids before it. -/
def checkId (path id : Text) (seen : Table Nat) : List Issue :=
  (match seen.get? id with
    | some first => [⟨path ++ ".id", "Duplicate id; first seen at items[" ++ Numeral.ofNat first ++ "].", true⟩]
    | none => []) ++
  (if isWritableId id then [] else [⟨path ++ ".id", "Id cannot be written inside a [@id] token.", true⟩])

/-- What is wrong with items; the first of them has the given place. -/
def checkItems (place : Nat) (seen : Table Nat) : List Item → List Issue
  | [] => []
  | item :: rest =>
    let path := "items[" ++ Numeral.ofNat place ++ "]"
    let id? := match item.member "id" with
      | .string t => t.trimmed?
      | _ => none
    match id? with
    | none => ⟨path ++ ".id", "Missing or empty id.", true⟩ :: checkItems (place + 1) seen rest
    | some id =>
      let path := path ++ "(" ++ id ++ ")"
      let seen' := if (seen.get? id).isSome then seen else seen.set id place
      checkId path id seen ++ checkType path item ++ checkItems (place + 1) seen' rest

/-- What is wrong with a library that comes from the origin. -/
def check (origin : Text) (v : Json) : List Issue :=
  match v with
  | .array _ | .object _ => checkItems 0 [] (items v)
  | _ => [⟨origin, "Root must be a CSL-JSON array.", true⟩]

/-- An issue as a line. -/
def Issue.line (i : Issue) : Text := (if i.fatal then "ERROR " else "WARN  ") ++ i.path ++ ": " ++ i.message

end Footcite.Csl
