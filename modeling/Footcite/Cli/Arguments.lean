import Footcite.Cli.Options
import Footcite.Text.Digit

/-!
# Arguments

How a list of arguments is read (`Options.read`). Each argument is first taken for a word, an option or neither
(`Argument.classify`); a long option may be cut short as long as it stays unique, and short options may be written
together. The first run of words gives the input, the library and the output; words after that are not recognized, and
neither are unknown options, but faults of the options that are known come first.

The rules are those of the option reader in its releases before 3.11.9. Later ones, such as 3.11.10, read otherwise what
is joined to an option in one of two ways: two dashes as its value (`--json=--`), and a value with an equals sign after
short options that are written together (`-vf=3`).
-/

namespace Footcite

/-- An argument as it stands on the command line. -/
inductive Argument
  | word (t : Text)
  /-- Two dashes alone: all that follows are words. -/
  | separator
  /-- An option; whether it is a short one; and what is joined to it. -/
  | option (s : Switch) (short : Bool) (joined : Option Text)
  | unknown (t : Text)
  deriving Repr, DecidableEq

namespace Argument

/-- Whether a text is a negative number: digits, or a point with digits after it and perhaps before it. -/
def isNegativeNumber (t : Text) : Bool :=
  match t with
  | '-' :: rest =>
    let line := match rest.getLast? with
      | some '\n' => rest.dropLast
      | _ => rest
    let whole := line.takeWhile isDecimalDigit
    match line.dropWhile isDecimalDigit with
    | [] => !whole.isEmpty
    | '.' :: fraction => !fraction.isEmpty && fraction.all isDecimalDigit
    | _ => false
  | _ => false

/-- The part of a text before the first equals sign, and the part after it if there is one. -/
def cut : Text → Text × Option Text
  | [] => ([], none)
  | '=' :: rest => ([], some rest)
  | c :: rest => (c :: (cut rest).1, (cut rest).2)

/-- Whether a spelling is a short one. -/
def isShort (t : Text) : Bool :=
  match t with
  | '-' :: c :: _ => c != '-'
  | _ => false

/-- The ways to take an argument for an option that is cut short, or for a short option with something joined to it.
An equals sign after a short option is a part of what is joined to it. -/
def candidates (t : Text) : List (Text × Argument) :=
  if isShort t then
    (Switch.table.filter fun (k, _) => k = t.take 2).map fun (k, s) => (k, .option s true (some (t.drop 2)))
  else
    let (name, value) := cut t
    (Switch.table.filter fun (k, _) => name.isPrefixOf k).map fun (k, s) =>
      (k, .option s (isShort k) value)

/-- What an argument is that begins with a dash and is no exact spelling of an option. -/
def guess (t : Text) : Except UsageFault Argument :=
  match candidates t with
  | [(_, a)] => .ok a
  | [] => .ok (if isNegativeNumber t || t.contains ' ' then .word t else .unknown t)
  | several => .error (.ambiguous t (several.map (·.1)))

/-- What an argument is. -/
def classify (t : Text) : Except UsageFault Argument :=
  match t with
  | '-' :: _ :: _ =>
    match Switch.ofSpelling? t with
    | some s => .ok (.option s (isShort t) none)
    | none =>
      match cut t with
      | (name, some value) => match Switch.ofSpelling? name with
        | some s => .ok (.option s (isShort name) (some value))
        | none => guess t
      | (_, none) => guess t
  | _ => .ok (.word t)

/-- What the arguments are. -/
def classifyAll : List Text → Except UsageFault (List Argument)
  | [] => .ok []
  | t :: rest =>
    if t = "--" then .ok (.separator :: rest.map .word)
    else do
      let a ← classify t
      let as ← classifyAll rest
      pure (a :: as)

/-- An argument that is left over, as it was written. -/
def raw : Argument → Text
  | word t | unknown t => t
  | separator => "--"
  | option s _ _ => s.text

/-! ## Words -/

/-- Whether the argument separates. -/
def separates : Argument → Bool
  | separator => true
  | _ => false

/-- The place of one word: separators, a word if there is one, and separators. -/
def slot (as : List Argument) : List Text × List Argument :=
  let before := as.takeWhile separates
  match as.dropWhile separates with
  | word t :: rest => ((before ++ word t :: rest.takeWhile separates).map raw, rest.dropWhile separates)
  | rest => (before.map raw, rest)

/-- The word of a place: what is left after the first separator is taken out. -/
def wordOf (slot : List Text) : Option Text := (slot.erase "--").head?

/-- Takes the words for input, library and output off the front. -/
def takeWords (o : Options) (as : List Argument) : Options × List Argument :=
  let (input, as) := slot as
  let (library, as) := slot as
  let (output, as) := slot as
  ({ o with input := wordOf input, library := wordOf library, output := wordOf output }, as)

/-! ## Options -/

/-- The options in one argument: those in front take no value, and the last may have one joined to it. -/
structure Cluster where
  front : List Switch := []
  last : Switch
  joined : Option Text := none

/-- Reads an option with something joined to it: a value if the option takes one, and else further short options. -/
def cluster (s : Switch) (short : Bool) (joined : Text) : Except UsageFault Cluster :=
  if s.arity ≠ .none then .ok { last := s, joined := some joined }
  else match joined with
    | [] => .error (.ignoredValue s joined)
    | c :: rest =>
      match if short then Switch.ofSpelling? ['-', c] else none with
      | none => .error (.ignoredValue s joined)
      | some next =>
        if rest.isEmpty then .ok { front := [s], last := next }
        else (cluster next true rest).map fun k => { k with front := s :: k.front }

/-- The value that is joined to an option; a separator stands for none. -/
def joinedValue (t : Text) : Option Text := if t = "--" then none else some t

/-- The value that an option takes from the arguments after it. -/
def takeValue (s : Switch) (as : List Argument) : Except UsageFault (Option Text × List Argument) :=
  match s.arity, as with
  | .none, _ => .ok (none, as)
  | .one, word t :: rest | .optional, word t :: rest => .ok (some t, rest)
  | .one, _ => .error (.expectedOne s)
  | .optional, _ => .ok (none, as)

/-- A fault as the end of reading. -/
def refuse {α : Type} : Except UsageFault α → Except Interruption α := Except.mapError .usage

/-- Reads the options in an argument and the value that the last one takes; gives the arguments after that. -/
def takeOption (o : Options) (s : Switch) (short : Bool) (joined : Option Text) (as : List Argument) :
    Except Interruption (Options × List Argument) := do
  let c : Cluster ← match joined with
    | some t => refuse (cluster s short t)
    | none => pure { last := s }
  let (value, as) ← match c.joined with
    | some t => pure (joinedValue t, as)
    | none => refuse (takeValue c.last as)
  let o ← c.front.foldlM (fun o s => o.apply s none) o
  let o ← o.apply c.last value
  pure (o, as)

/-! ## All arguments -/

/-- Reads arguments in turn, at most as many as the first argument says. The flag says that the words have been taken;
the answer has what is not recognized. -/
def readFrom : Nat → Options → (taken : Bool) → List Argument → Except Interruption (Options × List Text)
  | 0, o, _, as => .ok (o, as.map raw)
  | _ + 1, o, _, [] => .ok (o, [])
  | n + 1, o, taken, .option s short joined :: rest => do
    let (o, as) ← takeOption o s short joined rest
    readFrom n o taken as
  | n + 1, o, taken, .unknown t :: rest => do
    let (o, more) ← readFrom n o taken rest
    pure (o, t :: more)
  | n + 1, o, true, a :: rest => do
    let (o, more) ← readFrom n o true rest
    pure (o, a.raw :: more)
  | n + 1, o, false, as =>
    let (o, rest) := takeWords o as
    readFrom n o true rest

end Argument

/-- Reads a command line. -/
def Options.read (arguments : List Text) : Except Interruption Options := do
  let as ← Argument.refuse (Argument.classifyAll arguments)
  let (o, extra) ← Argument.readFrom (as.length + 1) {} false as
  if extra.isEmpty then pure o else throw (.usage (.unrecognized extra))

end Footcite
