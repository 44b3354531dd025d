import Footcite.Files.Path
import Footcite.Text.Numeral
import Footcite.Text.Quoted

/-!
# Options of the command line

The options by name (`Switch`), how each is spelled and whether it takes a value, and what they set (`Options`).
-/

namespace Footcite

/-- How a summary is shown. -/
inductive SummaryLayout
  | none
  | plain
  | rich
  deriving Repr, DecidableEq

/-- The spellings of the formats. -/
def SummaryLayout.spellings : List (Text × SummaryLayout) := [("none", .none), ("plain", .plain), ("rich", .rich)]

/-- What the command line asks for. The offset and the layout of the summary are none when the option stands there
without what it should name. -/
structure Options where
  input : Option Text := .none
  library : Option Text := .none
  output : Option Text := .none
  offset : Option Int := some 0
  userJournals : Option Text := .none
  forceOverwrite : Bool := false
  smallCaps : Bool := false
  summary : Option SummaryLayout := some .none
  json : Option Text := .none
  checkLibrary : Bool := false
  newUserJournals : Option Text := .none
  /-- One by default, and one more for each time that more output is asked for. -/
  verbosity : Nat := 1
  quiet : Bool := false
  debugLog : Option Text := .none
  deriving Repr

/-- The paths that the options name, in a working directory. -/
def Options.paths (o : Options) (home : Option Text) : List Path :=
  [o.input, o.library, o.output, o.userJournals, o.json, o.newUserJournals, o.debugLog].filterMap fun t =>
    t.map fun t => (Path.ofText t).within home

/-- The options by name. -/
inductive Switch
  | help
  | offset
  | userJournals
  | forceOverwrite
  | smallCaps
  | summary
  | json
  | checkLibrary
  | newUserJournals
  | verbose
  | quiet
  | debugLog
  deriving Repr, DecidableEq

/-- Whether an option takes a value. -/
inductive Arity
  | none
  | one
  /-- A value may be left out. -/
  | optional
  deriving Repr, DecidableEq

/-- How something on the command line is wrong. -/
inductive UsageFault
  | expectedOne (s : Switch)
  | ignoredValue (s : Switch) (value : Text)
  | notANumber (s : Switch) (value : Text)
  | notAChoice (s : Switch) (value : Text)
  | ambiguous (argument : Text) (candidates : List Text)
  | unrecognized (arguments : List Text)
  | noInput
  | noLibrary
  deriving Repr, DecidableEq

namespace Switch

/-- All options in the order in which they are listed. -/
def all : List Switch := [
  help, offset, userJournals, forceOverwrite, smallCaps, summary, json, checkLibrary, newUserJournals, verbose, quiet,
  debugLog]

/-- The spellings of an option. -/
def spellings : Switch → List Text
  | help => ["-h", "--help"]
  | offset => ["-f", "--offset"]
  | userJournals => ["-u", "--user-journals"]
  | forceOverwrite => ["-W", "--force-overwrite"]
  | smallCaps => ["-s", "--smallcaps"]
  | summary => ["--summary"]
  | json => ["--json"]
  | checkLibrary => ["--check-library"]
  | newUserJournals => ["--new-user-journals"]
  | verbose => ["-v", "--verbose"]
  | quiet => ["-q", "--quiet"]
  | debugLog => ["--debug-log"]

/-- Whether an option takes a value. -/
def arity : Switch → Arity
  | offset | userJournals | summary | json | debugLog => .one
  | newUserJournals => .optional
  | help | forceOverwrite | smallCaps | checkLibrary | verbose | quiet => .none

/-- The name of an option in a message. -/
def text (s : Switch) : Text := Text.join ['/'] s.spellings

/-- All spellings with their options. -/
def table : List (Text × Switch) := all.flatMap fun s => s.spellings.map fun t => (t, s)

/-- The option of a spelling. -/
def ofSpelling? (t : Text) : Option Switch := table.lookup t

end Switch

/-- The file of a user's journals when no name is given. -/
def starterFile : Text := "user_journals.json"

/-- What is told about a wrong command line. -/
def UsageFault.message : UsageFault → Text
  | .expectedOne s => "argument " ++ s.text ++ ": expected one argument"
  | .ignoredValue s v => "argument " ++ s.text ++ ": ignored explicit argument " ++ v.quoted
  | .notANumber s v => "argument " ++ s.text ++ ": invalid int value: " ++ v.quoted
  | .notAChoice s v =>
    "argument " ++ s.text ++ ": invalid choice: " ++ v.quoted ++ " (choose from " ++
      Text.join ", " (SummaryLayout.spellings.map fun (t, _) => t.quoted) ++ ")"
  | .ambiguous a candidates => "ambiguous option: " ++ a ++ " could match " ++ Text.join ", " candidates
  | .unrecognized as => "unrecognized arguments: " ++ Text.join [' '] as
  | .noInput => "input and library are required"
  | .noLibrary => "--check-library needs a library path"

/-- Why reading a command line ends early. -/
inductive Interruption
  | usage (f : UsageFault)
  | helpAsked
  deriving Repr, DecidableEq

/-- Sets what an option with its value stands for; without the value that it should have, it takes back what the option
stood for before. -/
def Options.apply (o : Options) (s : Switch) (value : Option Text) : Except Interruption Options :=
  match s, value with
  | .help, _ => .error .helpAsked
  | .offset, some v => match Numeral.read? v with
    | some n => .ok { o with offset := some n }
    | none => .error (.usage (.notANumber s v))
  | .summary, some v => match SummaryLayout.spellings.lookup v with
    | some f => .ok { o with summary := some f }
    | none => .error (.usage (.notAChoice s v))
  | .offset, none => .ok { o with offset := none }
  | .summary, none => .ok { o with summary := none }
  | .userJournals, v => .ok { o with userJournals := v }
  | .json, v => .ok { o with json := v }
  | .debugLog, v => .ok { o with debugLog := v }
  | .newUserJournals, v => .ok { o with newUserJournals := some (v.getD starterFile) }
  | .forceOverwrite, _ => .ok { o with forceOverwrite := true }
  | .smallCaps, _ => .ok { o with smallCaps := true }
  | .checkLibrary, _ => .ok { o with checkLibrary := true }
  | .verbose, _ => .ok { o with verbosity := o.verbosity + 1 }
  | .quiet, _ => .ok { o with quiet := true }

end Footcite
