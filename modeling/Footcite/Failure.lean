import Footcite.Json.Reader
import Footcite.Source.Basic
import Footcite.Text.Quoted

/-!
# Failures

Every way in which work on a document or a library can fail, as its cause, with a message (`Failure.message`). A fault in
a note carries the displayed number of the note. Some causes are told to the user as faults of the document or the
library (`Failure.reported`); the others are defects of the input that no rule of the domain names. A message with a
number that is too long to be written cannot be told (`Failure.told`).
-/

namespace Footcite

/-- What is wrong with a token in a note. -/
inductive TokenFault
  | openBracket
  | severalIds
  | notAnId
  | notABreaker
  | notAReference
  | openParenthesis
  | openNote
  deriving Repr, DecidableEq

/-- The reason given in a message. -/
def TokenFault.message : TokenFault → Text
  | .openBracket => "unclosed bracket"
  | .severalIds => "more than one identifier"
  | .notAnId => "only the identifier belongs inside the brackets"
  | .notABreaker => "a cite breaker is written [$]"
  | .notAReference => "a cross-reference is written [?id]"
  | .openParenthesis => "unbalanced parenthetical"
  | .openNote => "footnote is never closed"

/-- The fields that a form of citation can require. -/
inductive Field
  | title
  | container
  | reporter
  | volume
  | page
  deriving Repr, DecidableEq

/-- The name of a field in a message. -/
def Field.text : Field → Text
  | .title => "title"
  | .container => "container_title"
  | .reporter => "reporter"
  | .volume => "volume"
  | .page => "page"

/-- Why a file cannot be opened. -/
inductive FileFault
  | missing
  | directory
  | throughFile
  | longName
  /-- A path that holds a NUL is the path of nothing. -/
  | nulInPath
  deriving Repr, DecidableEq

/-- The system's words for it. -/
def FileFault.message : FileFault → Text
  | .missing => "No such file or directory"
  | .directory => "Is a directory"
  | .throughFile => "Not a directory"
  | .longName => "File name too long"
  | .nulInPath => "embedded null byte"

/-- Why a library or a journal table cannot be loaded. -/
inductive LoadFault
  | file (f : FileFault)
  | json (f : Json.Fault) (line : Nat)
  | notALibrary
  | notATable
  | duplicateId (id : Text)
  | alreadyThere
  deriving Repr, DecidableEq

/-- The reason given in a message. -/
def LoadFault.message : LoadFault → Text
  | .file f => f.message
  | .json f line => "invalid JSON (" ++ f.message ++ ", line " ++ Numeral.ofNat line ++ ")"
  | .notALibrary => "expected a CSL-JSON array of items"
  | .notATable => "expected a JSON object of journal name -> abbreviation"
  | .duplicateId id => "duplicate id '" ++ id ++ "'"
  | .alreadyThere => "file already exists"

/-- Why work on a document or a library fails. -/
inductive Failure
  /-- A file cannot be loaded. -/
  | unloadable (path : Text) (fault : LoadFault)
  /-- A token in a note is malformed. -/
  | malformed (token : Text) (fault : TokenFault) (note : Int)
  /-- No source of the library has the id. -/
  | unknownSource (id : Text) (note : Int)
  /-- A form of citation needs a field that the source lacks. -/
  | missingField (id : Text) (field : Field) (note : Option Int)
  /-- A pincite names no place. -/
  | emptyPincite (pincite id : Text) (note : Option Int)
  /-- Two notes are anchored under one name. -/
  | anchoredTwice (ref : Text) (first note : Int)
  /-- No note is anchored under the name. -/
  | neverAnchored (ref : Text) (note : Int)
  /-- A form for cases is asked for another kind of source. -/
  | notACase (id : Text) (kind : SourceKind)
  /-- A run of digits is no decimal numeral, or too long for one. -/
  | badNumeral
  /-- A number has more digits than a numeral may have. -/
  | longNumeral
  /-- An infinite number has no whole part. -/
  | notFinite
  /-- A file holds bytes that are no UTF-8. -/
  | notUtf8
  /-- A JSON file spells half of a surrogate pair. -/
  | halfCharacter
  /-- A source has no record among those cited. -/
  | noRecord (id : Text)
  /-- A file to be written or read is not there. -/
  | noSuchFile
  /-- A directory stands where a file is to be written or read. -/
  | isDirectory
  /-- A file stands where a directory is to be passed through. -/
  | notADirectory
  /-- A path, or a part of it, is too long. -/
  | longName
  /-- A path holds a NUL. -/
  | nulInPath
  /-- Notes are to be numbered by an offset that was given no number. -/
  | noOffset
  /-- A summary is to be shown in a layout that was given no name. -/
  | noLayout
  deriving Repr, DecidableEq

namespace Failure

/-- The failures that a user is told about. -/
def reported : Failure → Bool
  | unloadable .. | malformed .. | unknownSource .. | missingField .. | emptyPincite .. | anchoredTwice ..
  | neverAnchored .. => true
  | notACase .. | badNumeral | longNumeral | notFinite | notUtf8 | halfCharacter | noRecord _ | noSuchFile
  | isDirectory | notADirectory | longName | nulInPath | noOffset | noLayout => false

/-- The displayed number of the note at fault. -/
def note? : Failure → Option Int
  | malformed _ _ n | unknownSource _ n | anchoredTwice _ _ n | neverAnchored _ n => some n
  | missingField _ _ n | emptyPincite _ _ n => n
  | _ => none

/-- Places a failure in a note, unless it is placed already. -/
def inNote (number : Int) : Failure → Failure
  | missingField id field none => missingField id field (some number)
  | emptyPincite pincite id none => emptyPincite pincite id (some number)
  | f => f

/-- Where the fault is, at the front of a message. -/
def location : Option Int → Text
  | none => []
  | some n => "Footnote " ++ Numeral.ofInt n ++ ": "

/-- What the user is told. -/
def message : Failure → Text
  | unloadable path fault => "Could not load " ++ path ++ ": " ++ fault.message
  | malformed token fault n =>
    location (some n) ++ "malformed citation token " ++ token.quoted ++ " (" ++ fault.message ++ ")"
  | unknownSource id n => location (some n) ++ "no source with id '" ++ id ++ "' in the library"
  | missingField id field n =>
    location n ++ "source '" ++ id ++ "' is missing required field '" ++ field.text ++ "'"
  | emptyPincite pincite id n =>
    location n ++ "pincite " ++ pincite.quoted ++ " for '" ++ id ++ "' has no location"
  | anchoredTwice ref first n =>
    location (some n) ++ "cross-reference id '" ++ ref ++ "' is already anchored in footnote " ++ Numeral.ofInt first
  | neverAnchored ref n => location (some n) ++ "cross-reference id '" ++ ref ++ "' is never anchored"
  | notACase id kind => id ++ " is a " ++ kind.text ++ ", not a case"
  | badNumeral => "a run of digits is no decimal numeral, or has too many digits"
  | longNumeral => "a number has too many digits to be written"
  | notFinite => "an infinite number has no whole part"
  | notUtf8 => "a file is not UTF-8"
  | halfCharacter => "a text holds half of a surrogate pair"
  | noRecord id => "no citation of '" ++ id ++ "' is on record"
  | noSuchFile => FileFault.missing.message
  | isDirectory => FileFault.directory.message
  | notADirectory => FileFault.throughFile.message
  | longName => FileFault.longName.message
  | nulInPath => FileFault.nulInPath.message
  | noOffset => "the offset of the notes is no number"
  | noLayout => "the summary has no layout"

/-- The numbers that the message names. -/
def numbers : Failure → List Int
  | anchoredTwice _ first n => [first, n]
  | f => f.note?.toList

/-- What telling of a failure comes to: where a number of its message is too long to be written, that is the failure. -/
def told (f : Failure) : Failure := if f.numbers.all Numeral.fits then f else longNumeral

end Failure

/-- The numeral of a number that may have grown too long to be written. -/
def Numeral.write (n : Int) : Except Failure Text :=
  if Numeral.fits n then .ok (Numeral.ofInt n) else .error .longNumeral

end Footcite
