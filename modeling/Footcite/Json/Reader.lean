import Footcite.Json.Basic

/-!
# Reading JSON

`Json.read` reads a text that holds one JSON value, NaN and the infinities among the numbers. A text that is refused
is refused at the first place where it cannot go on, and the line of that place is reported. Values may stand in one
another to any depth: the bound that the stack of a machine sets to this is not modelled.

Two escapes that are a surrogate pair stand for one character. An escape of half a pair stands for none, and no `Text`
can hold it, so a value in which one occurs is refused as a whole (`Refusal.halfCharacter`), though only after all
faults, and whether or not the text with it would ever be written.
-/

namespace Footcite.Json

/-- What is wrong with a text that is no JSON value. -/
inductive Fault
  | byteOrderMark
  | noValue
  | noPropertyName
  | noColon
  | noComma
  | extraData
  | unterminated
  | controlCharacter
  | badEscape
  | badUnicodeEscape
  deriving Repr, DecidableEq

/-- What a report says about a fault. -/
def Fault.message : Fault → Text
  | .byteOrderMark => "Unexpected UTF-8 BOM (decode using utf-8-sig)"
  | .noValue => "Expecting value"
  | .noPropertyName => "Expecting property name enclosed in double quotes"
  | .noColon => "Expecting ':' delimiter"
  | .noComma => "Expecting ',' delimiter"
  | .extraData => "Extra data"
  | .unterminated => "Unterminated string starting at"
  | .controlCharacter => "Invalid control character at"
  | .badEscape => "Invalid \\escape"
  | .badUnicodeEscape => "Invalid \\uXXXX escape"

/-- Why reading stopped: a fault, with the text from its place on, or a numeral that is too long. -/
inductive Stop
  | fault (f : Fault) (rest : Text)
  | longNumeral

/-- Why a text is refused: a fault and its line, a numeral that is too long, or a value that is none of texts. -/
inductive Refusal
  | fault (f : Fault) (line : Nat)
  | longNumeral
  /-- An escape stands for half of a surrogate pair. -/
  | halfCharacter
  deriving Repr, DecidableEq

/-- What a reader of a part gives: the part and the text after it. -/
abbrev Reading (α : Type) := Except Stop (α × Text)

/-- The blanks that may stand between the parts of a value. -/
def skip (t : Text) : Text := t.dropWhile (" \t\n\r".toList.contains ·)

/-! ## Strings -/

/-- What a backslash and this character stand for. -/
def escaped? (c : Char) : Option Char :=
  [('"', '"'), ('\\', '\\'), ('/', '/'), ('b', '\x08'), ('f', '\x0c'), ('n', '\n'), ('r', '\r'), ('t', '\t')].lookup c

/-- The value of a hexadecimal digit. -/
def hexValue? (c : Char) : Option Nat :=
  if c.isDigit then some (c.toNat - '0'.toNat)
  else if 'a' ≤ c && c ≤ 'f' then some (c.toNat - 'a'.toNat + 10)
  else if 'A' ≤ c && c ≤ 'F' then some (c.toNat - 'A'.toNat + 10)
  else none

/-- Four hexadecimal digits with something after them. -/
def codeUnit? : Text → Option (Nat × Text)
  | a :: b :: c :: d :: rest => do
    if rest.isEmpty then none
    let n ← [a, b, c, d].foldlM (fun n x => (16 * n + ·) <$> hexValue? x) 0
    pure (n, rest)
  | _ => none

/-- The character of two code units, the first high and the second low. -/
def joinUnits (high low : Nat) : Char := Char.ofNat (0x10000 + (high - 0xd800) * 0x400 + (low - 0xdc00))

/-- The character of a code unit alone; none if the unit is half of a pair. -/
def aloneUnit? (unit : Nat) : Option Char :=
  if 0xd800 ≤ unit && unit < 0xe000 then none else some (Char.ofNat unit)

/-- Reads an escape after its backslash and u: the character that it stands for, if it is a whole one, and the text
after it. A high unit takes the low one after it. -/
def unicodeEscape (t : Text) : Option (Option Char × Text) := do
  let (unit, rest) ← codeUnit? t
  if 0xd800 ≤ unit && unit < 0xdc00 && 6 < rest.length then
    match rest with
    | '\\' :: 'u' :: more =>
      let (low, rest') ← codeUnit? more
      if 0xdc00 ≤ low && low < 0xe000 then pure (some (joinUnits unit low), rest') else pure (none, rest)
    | _ => pure (none, rest)
  else pure (aloneUnit? unit, rest)

/-- Whether an escape in the text stands for half a character. The first argument bounds the steps. -/
def holdsHalf : Nat → Text → Bool
  | 0, _ | _, [] => false
  | n + 1, '\\' :: 'u' :: rest =>
    match unicodeEscape rest with
    | some (some _, rest') => holdsHalf n rest'
    | some (none, _) => true
    | none => false
  | n + 1, '\\' :: _ :: rest | n + 1, _ :: rest => holdsHalf n rest

/-- What stands for half a character in a text, which cannot hold it. -/
def replacement : Char := '\ufffd'

/-- The characters of a string after its opening quote. The first argument bounds their number, the second is the text
from the quote on. -/
def stringFrom : Nat → Text → Text → Reading Text
  | 0, start, _ => .error (.fault .unterminated start)
  | _ + 1, start, [] => .error (.fault .unterminated start)
  | _ + 1, _, '"' :: rest => .ok ([], rest)
  | _ + 1, start, ['\\'] => .error (.fault .unterminated start)
  | n + 1, start, '\\' :: 'u' :: rest =>
    match unicodeEscape rest with
    | none => .error (.fault .badUnicodeEscape rest)
    | some (c?, rest') => (stringFrom n start rest').map fun (cs, r) => (c?.getD replacement :: cs, r)
  | n + 1, start, '\\' :: e :: rest =>
    match escaped? e with
    | none => .error (.fault .badEscape (e :: rest))
    | some c => (stringFrom n start rest).map fun (cs, r) => (c :: cs, r)
  | n + 1, start, c :: rest =>
    if c.toNat < 0x20 then .error (.fault .controlCharacter (c :: rest))
    else (stringFrom n start rest).map fun (cs, r) => (c :: cs, r)

/-- Reads a string after its opening quote. -/
def quotedText (rest : Text) : Reading Text := stringFrom (rest.length + 1) ('"' :: rest) rest

/-! ## Numbers -/

/-- The parts of a number as it is written. -/
structure Numeral where
  negative : Bool
  whole : Text
  /-- The digits after a point, with the point. -/
  fraction : Text
  /-- The sign and digits after an exponent mark. -/
  power : Text
  deriving Repr

/-- The run of digits at the front of a text, and the rest. -/
def digits (t : Text) : Text × Text := t.span Char.isDigit

/-- A point and digits. -/
def fraction (t : Text) : Text × Text :=
  match t with
  | '.' :: rest => if (digits rest).1.isEmpty then ([], t) else digits rest
  | _ => ([], t)

/-- An exponent mark, a sign or none, and digits. -/
def power (t : Text) : Text × Text :=
  let after (sign rest : Text) :=
    if (digits rest).1.isEmpty then ([], t) else (sign ++ (digits rest).1, (digits rest).2)
  match t with
  | e :: rest =>
    if e = 'e' || e = 'E' then
      match rest with
      | '-' :: rest' => after ['-'] rest'
      | '+' :: rest' => after ['+'] rest'
      | _ => after ['+'] rest
    else ([], t)
  | [] => ([], [])

/-- The parts of a number, if the text begins with one. A zero at the front stands alone. -/
def numeral? (t : Text) : Option (Numeral × Text) :=
  let (negative, unsigned) := match t with
    | '-' :: rest => (true, rest)
    | _ => (false, t)
  let (whole, rest) := match unsigned with
    | '0' :: rest => (['0'], rest)
    | _ => digits unsigned
  if whole.isEmpty then none
  else
    let (f, rest) := fraction rest
    let (p, rest) := power rest
    some (⟨negative, whole, f, p⟩, rest)

/-- The number that ASCII digits stand for. -/
def ofDigits (t : Text) : Nat := t.foldl (fun n c => 10 * n + (c.toNat - '0'.toNat)) 0

/-- The value of a number: whole if it has neither point nor exponent. -/
def Numeral.value (n : Numeral) : Except Stop Json :=
  if n.fraction.isEmpty && n.power.isEmpty then
    if Footcite.Numeral.maxDigits < n.whole.length then .error .longNumeral
    else .ok (.int (if n.negative then -(ofDigits n.whole : Int) else ofDigits n.whole))
  else
    let power : Int := match n.power with
      | '-' :: ds => -(ofDigits ds : Int)
      | _ :: ds => ofDigits ds
      | [] => 0
    .ok (.float (Binary64.ofDecimal n.negative (ofDigits (n.whole ++ n.fraction)) (power - n.fraction.length)))

/-! ## Values -/

/-- The values that are written as a word. -/
def words : List (Text × Json) := [
  ("null", .null), ("true", .bool true), ("false", .bool false), ("NaN", .float .nan),
  ("Infinity", .float (.infinite false)), ("-Infinity", .float (.infinite true))]

/-- A word or a number. -/
def atom (t : Text) : Reading Json :=
  match words.findSome? fun (w, v) => (Text.after? w t).map fun rest => (v, rest) with
  | some r => .ok r
  | none => match numeral? t with
    | some (n, rest) => n.value.map fun v => (v, rest)
    | none => .error (.fault .noValue t)

mutual

/-- Reads a value; the first argument bounds the steps. -/
def value : Nat → Text → Reading Json
  | 0, t => .error (.fault .noValue t)
  | _ + 1, '"' :: rest => (quotedText rest).map fun (s, r) => (.string s, r)
  | n + 1, '{' :: rest =>
    match skip rest with
    | '}' :: r => .ok (.object [], r)
    | r => (members n r).map fun (ms, r) => (.object (Table.ofEntries ms), r)
  | n + 1, '[' :: rest =>
    match skip rest with
    | ']' :: r => .ok (.array [], r)
    | r => (items n r).map fun (vs, r) => (.array vs, r)
  | _ + 1, t => atom t

/-- Reads the items of an array up to its end. -/
def items : Nat → Text → Reading (List Json)
  | 0, t => .error (.fault .noValue t)
  | n + 1, t =>
    match value n t with
    | .error e => .error e
    | .ok (v, rest) =>
      match skip rest with
      | ']' :: r => .ok ([v], r)
      | ',' :: r => (items n (skip r)).map fun (vs, r) => (v :: vs, r)
      | r => .error (.fault .noComma r)

/-- Reads the members of an object up to its end. -/
def members : Nat → Text → Reading (List (Text × Json))
  | 0, t => .error (.fault .noValue t)
  | n + 1, '"' :: t =>
    match quotedText t with
    | .error e => .error e
    | .ok (key, rest) =>
      match skip rest with
      | ':' :: r =>
        match value n (skip r) with
        | .error e => .error e
        | .ok (v, rest) =>
          match skip rest with
          | '}' :: r => .ok ([(key, v)], r)
          | ',' :: r => (members n (skip r)).map fun (ms, r) => ((key, v) :: ms, r)
          | r => .error (.fault .noComma r)
      | r => .error (.fault .noColon r)
  | _ + 1, t => .error (.fault .noPropertyName t)

end

/-- The line of a place in a text, the place given by what is left from there on. -/
def lineOf (whole rest : Text) : Nat := (whole.take (whole.length - rest.length)).count '\n' + 1

/-- Reads a text that holds one value. -/
def read (t : Text) : Except Refusal Json :=
  let refuse : Stop → Except Refusal Json
    | .fault f rest => .error (.fault f (lineOf t rest))
    | .longNumeral => .error .longNumeral
  if t.head? = some '\ufeff' then refuse (.fault .byteOrderMark t)
  else match value (2 * t.length + 2) (skip t) with
    | .error s => refuse s
    | .ok (v, rest) =>
      if !(skip rest).isEmpty then refuse (.fault .extraData (skip rest))
      else if holdsHalf t.length t then .error .halfCharacter
      else .ok v

end Footcite.Json
