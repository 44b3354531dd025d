import Footcite.Decimal.Shortest
import Footcite.Json.Basic
import Footcite.Text.Quoted

/-!
# Writing JSON

`Json.pretty` lays a value out over lines, two spaces to a level, in ASCII alone: all other characters are written as
their UTF-16 code units. `Json.plain` is the text of a value in a message or a field.
-/

namespace Footcite.Json

/-- How a number of double precision is written: positionally from `10 ^ -4` to below `10 ^ 16`, and with an exponent
of at least two digits elsewhere. -/
def floatFormat : Binary64.Format := ⟨-4, 16, 2, "inf", "nan"⟩

/-! ## Laid out over lines -/

/-- A code unit as an escape. -/
def unitEscape (n : Nat) : Text := '\\' :: 'u' :: Text.hex 4 n

/-- A character inside a string. -/
def escape (c : Char) : Text :=
  if c = '"' || c = '\\' then ['\\', c]
  else if c = '\n' then ['\\', 'n']
  else if c = '\r' then ['\\', 'r']
  else if c = '\t' then ['\\', 't']
  else if c = '\x08' then ['\\', 'b']
  else if c = '\x0c' then ['\\', 'f']
  else if ' ' ≤ c && c ≤ '~' then [c]
  else if c.toNat < 0x10000 then unitEscape c.toNat
  else unitEscape (0xd800 + (c.toNat - 0x10000) / 0x400) ++ unitEscape (0xdc00 + (c.toNat - 0x10000) % 0x400)

/-- A string in quotes. -/
def quote (t : Text) : Text := '"' :: t.flatMap escape ++ ['"']

/-- A line break and the indent of a level. -/
def newline (level : Nat) : Text := '\n' :: List.replicate (2 * level) ' '

mutual

/-- A value at a level. -/
def prettyAt (level : Nat) : Json → Text
  | .null => "null"
  | .bool b => if b then "true" else "false"
  | .int n => Numeral.ofInt n
  | .float .nan => "NaN"
  | .float (.infinite negative) => if negative then "-Infinity" else "Infinity"
  | .float x => x.write floatFormat
  | .string t => quote t
  | .array [] => "[]"
  | .array vs => '[' :: newline (level + 1) ++ prettyItems (level + 1) vs ++ newline level ++ [']']
  | .object [] => "\x7b\x7d"
  | .object ms => '\x7b' :: newline (level + 1) ++ prettyMembers (level + 1) ms ++ newline level ++ ['\x7d']

/-- The items of an array, one to a line. -/
def prettyItems (level : Nat) : List Json → Text
  | [] => []
  | [v] => prettyAt level v
  | v :: w :: ws => prettyAt level v ++ ',' :: newline level ++ prettyItems level (w :: ws)

/-- The members of an object, one to a line. -/
def prettyMembers (level : Nat) : List (Text × Json) → Text
  | [] => []
  | [(k, v)] => quote k ++ ": " ++ prettyAt level v
  | (k, v) :: m :: ms => quote k ++ ": " ++ prettyAt level v ++ ',' :: newline level ++ prettyMembers level (m :: ms)

end

/-- A value over several lines. -/
def pretty (v : Json) : Text := prettyAt 0 v

mutual

/-- Whether no number in the value is too long to be written. -/
def writable : Json → Bool
  | .int n => Numeral.fits n
  | .array vs => writableItems vs
  | .object ms => writableMembers ms
  | .null | .bool _ | .float _ | .string _ => true

/-- Whether the items of an array can be written. -/
def writableItems : List Json → Bool
  | [] => true
  | v :: vs => v.writable && writableItems vs

/-- Whether the members of an object can be written. -/
def writableMembers : List (Text × Json) → Bool
  | [] => true
  | (_, v) :: ms => v.writable && writableMembers ms

end

/-! ## In a message -/

mutual

/-- The text of a value inside another: strings are quoted. -/
def inner : Json → Text
  | .null => "None"
  | .bool b => if b then "True" else "False"
  | .int n => Numeral.ofInt n
  | .float x => x.write floatFormat
  | .string t => t.quoted
  | .array vs => '[' :: innerItems vs ++ [']']
  | .object ms => '\x7b' :: innerMembers ms ++ ['\x7d']

/-- The items of an array. -/
def innerItems : List Json → Text
  | [] => []
  | [v] => inner v
  | v :: w :: ws => inner v ++ ", " ++ innerItems (w :: ws)

/-- The members of an object. -/
def innerMembers : List (Text × Json) → Text
  | [] => []
  | [(k, v)] => k.quoted ++ ": " ++ inner v
  | (k, v) :: m :: ms => k.quoted ++ ": " ++ inner v ++ ", " ++ innerMembers (m :: ms)

end

/-- The text of a value: a string is its own text. -/
def plain : Json → Text
  | .string t => t
  | v => v.inner

end Footcite.Json
