import Footcite.Cli.Program

/-!
# The program on the command line

Reads the files that the command line names, runs, writes the files that have changed, and prints. All that it does in
between is `Session.runIn`.
-/

namespace Footcite

/-- What is at a place, if anything is there. -/
def readNode (name : Text) : IO (Option FileNode) := do
  match ← (IO.FS.readBinFile (String.ofList name)).toBaseIO with
  | .ok bytes => pure (some (.file bytes.toList))
  | .error (.inappropriateType ..) => pure (some .directory)
  | .error _ => pure none

/-- The files at the places that paths lead through. -/
def readTree (paths : List Path) : IO FileTree :=
  (paths.flatMap Path.places).foldlM (fun tree name => do
    match ← readNode name with
    | some n => pure (Table.set tree name n)
    | none => pure tree) []

/-- Writes the files of a tree that another does not have as they are. -/
def writeChanges (before after : FileTree) : IO Unit :=
  after.forM fun (name, node) =>
    match node with
    | .file bytes =>
      if before.get? name = some node then pure ()
      else IO.FS.writeBinFile (String.ofList name) ⟨bytes.toArray⟩
    | .directory => pure ()

/-- The options of a command line as far as it can be read. -/
def readableOptions (arguments : List Text) : Options := (Options.read arguments).toOption.getD {}

/-- Prints what a run leaves behind: the result, and beside it the log, the displays and the remarks. -/
def Session.print (s : Session) : IO Unit := do
  IO.print (String.ofList s.printed)
  for e in s.log.filter s.shows do
    IO.eprintln (String.ofList e.line)
  for d in s.displays do
    IO.eprint (String.ofList d.layout)
  IO.eprint (String.ofList s.remarks)

/-- Prints why a run ended, and gives its status. -/
def Ending.print : Ending → IO UInt32
  | .status code => pure (UInt32.ofNat code)
  | .message t => do
    IO.eprintln (String.ofList t)
    pure 1
  | .failure f => do
    IO.eprintln (String.ofList (programName ++ ": " ++ f.message))
    pure 1

end Footcite

open Footcite in
/-- Runs the program. -/
def main (arguments : List String) : IO UInt32 := do
  let arguments := arguments.map String.toList
  let options := readableOptions arguments
  let home := (← IO.currentDir).toString.toList
  let tree ← readTree (options.paths (some home))
  let stdin ← if options.input = some "-" then (← IO.getStdin).readToEnd else pure ""
  let (ending, s) := Session.runIn (some home) arguments tree stdin.toList
  writeChanges tree s.tree
  s.print
  ending.print
