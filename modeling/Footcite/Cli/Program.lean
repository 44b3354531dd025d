import Footcite.Cli.Arguments
import Footcite.Cli.Session
import Footcite.Csl.File
import Footcite.Journal.Listed
import Footcite.Journal.Table
import Footcite.Report.Json
import Footcite.Report.Summary

/-!
# The program

`Session.runIn` is what the program does in a working directory with a command line, the files it sees and its standard
input. It writes a starter table of journals, or checks a library, or works through a document; then it prints the
document or writes it to a file, and reports on it as asked. `Session.run` leaves open where the working directory is.
-/

namespace Footcite

/-- The name of the program in its messages. -/
def programName : Text := "supra"

namespace Running

/-- Ends the run because of a wrong command line. -/
def usage {α : Type} (f : UsageFault) : Running α := do
  remark (programName ++ ": error: " ++ f.message)
  throw (.status 2)

/-- The least level that is shown. -/
def threshold (o : Options) : Level :=
  if o.quiet then .error
  else match o.verbosity with
    | 0 => .error
    | 1 => .warning
    | 2 => .info
    | _ => .debug

/-- Sets up the log. A file for the log is made at once. -/
def openLog (o : Options) : Running Unit := do
  modify fun s => { s with threshold := threshold o }
  match nonEmpty o.debugLog with
  | none => pure ()
  | some t => do
    let s ← get
    let p := (s.path t).canonical
    changeFiles fun tree => tree.append p []
    modify fun s => { s with debugLog := some p }

/-- Writes a starter table of journals. -/
def startJournals (t : Text) : Running Unit := do
  let s ← get
  match JournalTable.writeStarter s.tree (s.path t) with
  | .ok tree => do
    modify fun s => { s with tree }
    remark ("Wrote " ++ (s.path t).text)
  | .error f => if f.reported then throw (.message f.message) else throw (.failure f)

/-- Checks a library; the status is two if an issue is fatal. -/
def reviewLibrary (o : Options) : Running Unit := do
  match (nonEmpty o.library).or (nonEmpty o.input) with
  | none => usage .noLibrary
  | some t => do
    let s ← get
    match Csl.checkFile s.tree (s.path t) with
    | .error f => fail [] f
    | .ok issues => do
      if o.summary = some .rich then
        modify fun s => { s with displays := s.displays ++ [Csl.Issue.display issues] }
      else issues.forM fun i => remark i.line
      throw (.status (if issues.any (·.fatal) then 2 else 0))

/-- Refuses to write the result over the document, unless that is asked for. -/
def guardInput (o : Options) (input : Text) (output : Option Path) : Running Unit := do
  let s ← get
  match output with
  | none => pure ()
  | some p =>
    let i := s.path input
    if input = "-" then pure ()
    else if i.holdsNul || p.holdsNul then throw (.failure .nulInPath)
    else if p.place = i.place && !o.forceOverwrite then
      throw (.message ("Refusing to overwrite the input file " ++ i.text ++ "; pass -W/--force-overwrite."))

/-- Reads the document from a file or from standard input. -/
def readDocument (input stdin : Text) : Running Text := do
  if input = "-" then pure (Utf8.unifyLines stdin)
  else
    let s ← get
    match s.tree.bytes (s.path input) with
    | .ok bytes => orFail (FileTree.decoded bytes)
    | .error .missing => throw (.message ("Input file not found: " ++ (s.path input).text))
    | .error f => throw (.failure (FileTree.fault f))

/-- Does work that a failure of the domain ends with a message. -/
def reporting {α : Type} (work : Running (Except Failure α)) : Running α := do
  match ← work with
  | .ok a => pure a
  | .error f => fail "error: " f

/-- Shows a summary of a resolution in a layout. -/
def showSummary (layout : SummaryLayout) (r : Resolution) : Running Unit := do
  match layout with
  | .none => pure ()
  | .plain => do
    let lines ← orFail r.summary
    lines.forM remark
  | .rich => do
    let displays ← orFail r.summaryDisplays
    modify fun s => { s with displays := s.displays ++ displays }

/-- Writes the report on a resolution to a file, if that is asked for. -/
def writeReport (o : Options) (input library : Text) (r : Resolution) : Running Unit := do
  match nonEmpty o.json with
  | none => pure ()
  | some t => do
    let v ← orFail (r.report (some input) (some library) o.offset).checked
    let s ← get
    changeFiles fun tree => tree.write (s.path t) (v.pretty ++ ['\n'])

/-- The offset for a document; one without notes needs none. -/
def offsetFor (o : Options) (text : Text) : Except Failure Int :=
  match o.offset, Layout.ofText text with
  | some n, _ => .ok n
  | none, .prose _ => .ok 0
  | none, _ => .error .noOffset

/-- Loads the library. -/
def loadLibrary (t : Text) : Running Library := reporting do
  let s ← get
  logging (Csl.load s.tree (s.path t))

/-- Loads the user's table of journals; without one it is empty. -/
def loadJournals (o : Options) : Running (Table Text) :=
  match nonEmpty o.userJournals with
  | none => pure []
  | some t => reporting do
    let s ← get
    logging (JournalTable.load s.tree (s.path t))

/-- Writes the result to a file, or prints it. -/
def deliver (output : Option Path) (result : Text) : Running Unit :=
  match output with
  | none => modify fun s => { s with printed := s.printed ++ result }
  | some p => do
    changeFiles fun tree => tree.write p result
    emit (.wrote p.text)

/-- The layout of the summary, if it was given a name. -/
def summaryLayout (o : Options) : Running SummaryLayout :=
  match o.summary with
  | some layout => pure layout
  | none => throw (.failure .noLayout)

/-- Works through a document. -/
def citeDocument (o : Options) (input library stdin : Text) : Running Unit := do
  let layout ← summaryLayout o
  let s ← get
  let output := (nonEmpty o.output).map s.path
  guardInput o input output
  let text ← readDocument input stdin
  let sources ← loadLibrary library
  let user ← loadJournals o
  let offset ← orFail (offsetFor o text)
  let result ← reporting <|
    editing (Journals.ofTables user listedJournals) (process sources offset o.smallCaps text)
  deliver output result.output
  showSummary layout result.resolution
  writeReport o input library result.resolution

/-- Does what the options ask for. -/
def perform (o : Options) (stdin : Text) : Running Unit := do
  openLog o
  match nonEmpty o.newUserJournals with
  | some t => startJournals t
  | none =>
    if o.checkLibrary then reviewLibrary o
    else match nonEmpty o.input, nonEmpty o.library with
      | some input, some library => citeDocument o input library stdin
      | _, _ => usage .noInput

/-- The whole run. -/
def program (arguments : List Text) (stdin : Text) : Running Unit := do
  match Options.read arguments with
  | .ok o => perform o stdin
  | .error .helpAsked => pure ()
  | .error (.usage f) => usage f

end Running

/-- What the program does in the working directory of this name, if it is known: how it ends, and what it leaves. -/
def Session.runIn (home : Option Text) (arguments : List Text) (tree : FileTree) (stdin : Text) : Ending × Session :=
  match (Running.program arguments stdin).run.run { tree, home } with
  | (.ok (), s) => (.status 0, s)
  | (.error e, s) => (e, s)

/-- What the program does in a working directory that may be anywhere. -/
def Session.run (arguments : List Text) (tree : FileTree) (stdin : Text) : Ending × Session :=
  Session.runIn none arguments tree stdin

end Footcite
