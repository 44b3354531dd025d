import Footcite.Failure
import Footcite.Json.Printer

/-!
# Values in CSL-JSON

How the values of a CSL-JSON item are read: as texts, as names, as whole numbers. Items in the wild are loose about
types, so a number may stand where a text is expected and the other way round.

A whole number is written as a text however many digits it has. A file holds none that is too long to be written
(`Json.read` refuses it), so this makes a difference only for values that come from elsewhere, and nothing is meant to be
said of those: a program that bounds the digits of a numeral fails at them.
-/

namespace Footcite.Csl

/-- The members of an item. -/
abbrev Item := Table Json

/-- Whether a value counts as given where one of two members may hold it. -/
def filled : Json → Bool
  | .null => false
  | .bool b => b
  | .int n => n != 0
  | .float x => !x.isZero
  | .string t => !t.isEmpty
  | .array vs => !vs.isEmpty
  | .object ms => !ms.isEmpty

/-- The member of a name; a missing member is null. -/
def Item.member (item : Item) (name : Text) : Json := (item.get? name).getD .null

/-- The first of two members, or the second if the first is not filled. -/
def Item.either (item : Item) (first second : Text) : Json :=
  if filled (item.member first) then item.member first else item.member second

/-- A value as a trimmed text; nothing for null and for a text of blanks. -/
def text? : Json → Option Text
  | .null => none
  | v => v.plain.trimmed?

/-- The text of a member. -/
def Item.text? (item : Item) (name : Text) : Option Text := Csl.text? (item.member name)

/-- A list of names; all else in it is passed over. -/
def names : Json → List Name
  | .array vs => vs.filterMap fun
    | .object n => some {
        family := Item.text? n "family"
        given := Item.text? n "given"
        particle := Item.text? n "non-dropping-particle"
        suffix := Item.text? n "suffix"
        literal := Item.text? n "literal" }
    | _ => none
  | _ => []

/-! ## Dates -/

/-- The whole number of a value, cut off toward zero; nothing if it has none. -/
def whole : Json → Except Failure (Option Int)
  | .int n => .ok (some n)
  | .bool b => .ok (some (if b then 1 else 0))
  | .float (.infinite _) => .error .notFinite
  | .float x => .ok x.truncate?
  | .string t => .ok (Numeral.read? t)
  | .null | .array _ | .object _ => .ok none

/-- The members of the date of publication. -/
def Item.issued? (item : Item) : Option Item :=
  match item.member "issued" with
  | .object ms => some ms
  | _ => none

/-- The parts of the date: year, month, day, as far as they are given. -/
def Item.dateParts (item : Item) : List Json :=
  match item.issued?.map (Item.member · "date-parts") with
  | some (.array (.array parts :: _)) => parts
  | _ => []

/-- The date in words. -/
def Item.dateText (item : Item) : Text :=
  match item.issued? with
  | some date => let v := date.either "raw" "literal"; if filled v then v.plain else []
  | none => []

/-- The year of publication: the first part of the date, or the four digits that its words begin with. -/
def Item.year (item : Item) : Except Failure (Option Int) :=
  match item.dateParts with
  | first :: _ => whole first
  | [] =>
    let digits := (item.dateText.take 4).filter isDigitLike
    if digits.length = 4 then
      match Numeral.digits? digits with
      | some n => .ok (some n)
      | none => .error .badNumeral
    else .ok none

/-- The months as a date prints them. -/
def months : List Text := [
  "Jan.", "Feb.", "Mar.", "Apr.", "May", "June", "July", "Aug.", "Sept.", "Oct.", "Nov.", "Dec."]

/-- Whole numbers for all values, up to the first that has none. -/
def wholes : List Json → Except Failure (Option (List Int))
  | [] => .ok (some [])
  | v :: vs => do
    match ← whole v with
    | none => pure none
    | some n => do
      let rest ← wholes vs
      pure (rest.map (n :: ·))

/-- The date of an issue, with month and year at least. -/
def Item.issueDate (item : Item) : Except Failure (Option Text) := do
  match ← wholes item.dateParts with
  | some (year :: month :: rest) =>
    if month < 1 || 12 < month then pure none
    else
      let name := months.getD (month.toNat - 1) []
      let day : Text := match rest with
        | d :: _ => " " ++ Numeral.ofInt d ++ ","
        | [] => []
      pure (some (name ++ day ++ " " ++ Numeral.ofInt year))
  | _ => pure none

/-! ## Pages -/

/-- The dashes that a range of pages may be written with. -/
def dashes : List Char := ['-', '–', '—']

/-- The part of a text before a dash, if it has one. -/
def beforeDash (t : Text) (dash : Char) : Text := if t.contains dash then (t.before dash).trim else t

/-- The first page of a range. -/
def firstPage? (v : Json) : Option Text := (text? v).bind fun t => (dashes.foldl beforeDash t).trimmed?

end Footcite.Csl
