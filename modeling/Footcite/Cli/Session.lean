import Footcite.Csl.Library
import Footcite.Desk
import Footcite.Files.Tree
import Footcite.Report.Display

/-!
# Sessions

What a run of the program has to do with: the files, the log, and what it prints (`Session`). A run may end early with
a status, with a message, or by a failure that it does not report (`Ending`); what was done up to then stays done.
-/

namespace Footcite

/-- How a run ends. -/
inductive Ending
  | status (code : Nat)
  /-- A message takes the place of the status. -/
  | message (t : Text)
  | failure (f : Failure)
  deriving Repr, DecidableEq

/-- The state of a run. -/
structure Session where
  tree : FileTree
  /-- The name of the working directory from the root on, if it is known. -/
  home : Option Text := none
  /-- The least level that is shown. -/
  threshold : Level := .warning
  /-- A file that everything is logged to; without one only what is shown goes into the log. -/
  debugLog : Option Path := none
  log : List Event := []
  /-- What is printed as the result. -/
  printed : Text := []
  /-- What is printed beside the result. -/
  remarks : Text := []
  displays : List Display := []
  deriving Repr

/-- Whether an event matters enough to be shown. -/
def Session.shows (s : Session) (e : Event) : Bool := s.threshold.rank ≤ e.level.rank

/-- A path as it is read in the working directory. -/
def Session.path (s : Session) (t : Text) : Path := (Path.ofText t).within s.home

/-- A part of a run. -/
abbrev Running := ExceptT Ending (StateM Session)

namespace Running

/-- Work that may fail, a failure ending the run. -/
def orFail {α : Type} : Except Failure α → Running α
  | .ok a => pure a
  | .error f => throw (.failure f)

/-- Changes the files. -/
def changeFiles (change : FileTree → Except Failure FileTree) : Running Unit := do
  let tree ← orFail (change (← get).tree)
  modify fun s => { s with tree }

/-- Prints a line beside the result. -/
def remark (line : Text) : Running Unit := modify fun s => { s with remarks := s.remarks ++ line ++ ['\n'] }

/-- Puts an event into the log. One that cannot be written ends the run if it is to be shown; the file for the log does
without it. -/
def emit (e : Event) : Running Unit := do
  let s ← get
  if s.debugLog.isSome || s.shows e then
    if e.writable then
      set { s with log := s.log ++ [e] }
      match s.debugLog with
      | some p => changeFiles fun tree => tree.append p (e.line ++ ['\n'])
      | none => pure ()
    else if s.shows e then throw (.failure .longNumeral)

/-- Does work that goes into the log; its failure is an answer. -/
def logging {α : Type} (work : Logging α) : Running (Except Failure α) := do
  let (answer, events) := work.run.run []
  events.forM emit
  pure answer

/-- Does work at a desk with the given journals; its failure is an answer. -/
def editing {α : Type} (journals : Journals) (work : Editing α) : Running (Except Failure α) := do
  let (answer, desk) := work.run.run { journals }
  desk.log.forM emit
  pure answer

/-- Ends the run by a failure: one that is reported is told to the user, and the status is two. -/
def fail {α : Type} (lead : Text) (f : Failure) : Running α := do
  if f.told.reported then do
    remark (lead ++ f.message)
    throw (.status 2)
  else throw (.failure f.told)

end Running

end Footcite
