import Footcite.Citation.Form
import Footcite.Text.Numeral
import Footcite.Text.Quoted

/-!
# The log

What happens on the way that a user may want to know: each event has a level and a message.
-/

namespace Footcite

/-- How much an event matters. -/
inductive Level
  | debug
  | info
  | warning
  | error
  deriving Repr, DecidableEq

/-- The order of levels. -/
def Level.rank : Level → Nat
  | .debug => 0
  | .info => 1
  | .warning => 2
  | .error => 3

/-- The name of a level. -/
def Level.text : Level → Text
  | .debug => "DEBUG"
  | .info => "INFO"
  | .warning => "WARNING"
  | .error => "ERROR"

/-- Something worth noting. -/
inductive Event
  /-- An item of a library is of no supported kind; its id and its type as texts. -/
  | skipped (id type : Text)
  | parsedLibrary (sources : Nat) (origin : Text)
  | loadedLibrary (sources : Nat) (path : Text)
  | loadedJournals (names : Nat) (path : Text)
  /-- A journal is in no table, and its name was abbreviated by rule. -/
  | ruleAbbreviated (name abbreviation : Text)
  | noShortTitle (id : Text)
  | foundNotes (count : Nat)
  | decided (note : Int) (id : Text) (form : Form)
  | settled (citations notes : Nat)
  | wrote (path : Text)
  deriving Repr, DecidableEq

namespace Event

/-- The level of an event. -/
def level : Event → Level
  | skipped .. | ruleAbbreviated .. | noShortTitle _ => .warning
  | loadedLibrary .. | loadedJournals .. | settled .. | wrote _ => .info
  | parsedLibrary .. | foundNotes _ | decided .. => .debug

/-- The name of a form in the log. -/
def formName : Form → Text
  | .full _ => "Full"
  | .short .. => "Short"
  | .id .. => "Id"
  | .shortCase => "ShortCaseForm"
  | .longCase => "LongCaseForm"

/-- The message of an event. -/
def message : Event → Text
  | skipped id type => "Skipping " ++ id ++ ": type " ++ type ++ " is not supported"
  | parsedLibrary n origin => "Parsed " ++ Numeral.ofNat n ++ " library entries from " ++ origin
  | loadedLibrary n path => "Loaded " ++ Numeral.ofNat n ++ " sources from " ++ path
  | loadedJournals n path => "Loaded " ++ Numeral.ofNat n ++ " user journal abbreviations from " ++ path
  | ruleAbbreviated name abbreviation =>
    "No abbreviation found for " ++ name.quoted ++ "; using " ++ abbreviation.quoted
  | noShortTitle id => "No short title for " ++ id ++ "; using the full title"
  | foundNotes n => "Extracted " ++ Numeral.ofNat n ++ " footnotes"
  | decided note id form => "Footnote " ++ Numeral.ofInt note ++ ": " ++ id ++ " -> " ++ formName form
  | settled citations notes =>
    "Resolved " ++ Numeral.ofNat citations ++ " citations in " ++ Numeral.ofNat notes ++ " footnotes"
  | wrote path => "Wrote " ++ path

/-- Whether the message can be written: the number of a note may be too long for that. -/
def writable : Event → Bool
  | decided note _ _ => Numeral.fits note
  | _ => true

/-- An event as a line of the log. -/
def line (e : Event) : Text := e.level.text ++ ": " ++ e.message

end Event

end Footcite
