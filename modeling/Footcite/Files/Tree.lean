import Footcite.Failure
import Footcite.Files.Path
import Footcite.Text.Utf8

/-!
# File trees

The files that a program sees. A path is followed part by part (`FileTree.find`): all parts but the last must lead to
directories. Reading and writing fail as the system would have it. There are no links among the files, neither hard nor
symbolic: each file has one name, and only the spelling of a path, not what lies in the files, can lead to it in two ways.
-/

namespace Footcite

/-- A file with its bytes, or a directory. -/
inductive FileNode
  | file (bytes : List UInt8)
  | directory
  deriving Repr, DecidableEq

/-- Files and directories by their names, with slashes between the parts, from the working directory on or from the
root. A directory that holds something need not be listed. -/
abbrev FileTree := Table FileNode

/-- Where a path leads. -/
inductive Destination
  | file (name : Text) (bytes : List UInt8)
  | directory
  /-- Nothing is there, but a file of this name could be. -/
  | vacant (name : Text)
  /-- The path passes through a directory that is not there. -/
  | astray
  /-- The path passes through a file. -/
  | blocked
  /-- The path is too long, or comes to a part that is. -/
  | overlong
  /-- The path is none, for it holds a NUL. -/
  | unnameable
  deriving Repr

namespace FileTree

/-- The node of a name; a name that others begin with is a directory. -/
def node? (tree : FileTree) (name : Text) : Option FileNode :=
  match tree.get? name with
  | some n => some n
  | none => if tree.any fun (k, _) => (name ++ ['/']).isPrefixOf k then some .directory else none

/-- A name of a file has at most this many bytes. -/
def maxNameBytes : Nat := 255

/-- A path has at most this many bytes. -/
def maxPathBytes : Nat := 4095

/-- The node at a place; the working directory is there, and so is all above it. -/
def nodeAt? (tree : FileTree) (home : Option (List Text)) (w : Place) : Option FileNode :=
  if w.isHome home then some .directory else tree.node? w.name

/-- Follows parts from a directory. -/
def follow (tree : FileTree) (home : Option (List Text)) (w : Place) : List Text → Destination
  | [] => .directory
  | part :: rest =>
    if part = Path.up then follow tree home (w.above home) rest
    else if maxNameBytes < (Utf8.encode part).length then .overlong
    else
      let w := w.enter home part
      match tree.nodeAt? home w, rest with
      | some .directory, _ => follow tree home w rest
      | some (.file bytes), [] => .file w.name bytes
      | some (.file _), _ :: _ => .blocked
      | none, [] => .vacant w.name
      | none, _ :: _ => .astray

/-- Where a path leads. -/
def find (tree : FileTree) (p : Path) : Destination :=
  if p.holdsNul then .unnameable
  else if maxPathBytes < (Utf8.encode p.text).length then .overlong
  else tree.follow p.home p.start p.parts

/-- Whether something is at the path; that cannot be told of one that is too long. -/
def has (tree : FileTree) (p : Path) : Except Failure Bool :=
  match tree.find p with
  | .file .. | .directory => .ok true
  | .vacant _ | .astray | .blocked | .unnameable => .ok false
  | .overlong => .error .longName

/-- The bytes of the file at a path. -/
def bytes (tree : FileTree) (p : Path) : Except FileFault (List UInt8) :=
  match tree.find p with
  | .file _ bytes => .ok bytes
  | .directory => .error .directory
  | .vacant _ | .astray => .error .missing
  | .blocked => .error .throughFile
  | .overlong => .error .longName
  | .unnameable => .error .nulInPath

/-- The text of bytes, with line ends unified. -/
def decoded (bytes : List UInt8) : Except Failure Text :=
  match Utf8.decode? bytes with
  | some t => .ok (Utf8.unifyLines t)
  | none => .error .notUtf8

/-- The failure of a file that cannot be opened. -/
def fault : FileFault → Failure
  | .missing => .noSuchFile
  | .directory => .isDirectory
  | .throughFile => .notADirectory
  | .longName => .longName
  | .nulInPath => .nulInPath

/-- Writes a file; what was there before is given to the function, nothing if the file is new. -/
def change (tree : FileTree) (p : Path) (f : List UInt8 → List UInt8) : Except Failure FileTree :=
  match tree.find p with
  | .file name old => .ok (tree.set name (.file (f old)))
  | .vacant name => .ok (tree.set name (.file (f [])))
  | .directory => .error .isDirectory
  | .astray => .error .noSuchFile
  | .blocked => .error .notADirectory
  | .overlong => .error .longName
  | .unnameable => .error .nulInPath

/-- Writes a text to a file in place of what was there. -/
def write (tree : FileTree) (p : Path) (t : Text) : Except Failure FileTree := tree.change p fun _ => Utf8.encode t

/-- Writes a text at the end of a file. -/
def append (tree : FileTree) (p : Path) (t : Text) : Except Failure FileTree :=
  tree.change p fun old => old ++ Utf8.encode t

/-- Reads a JSON file. -/
def json (tree : FileTree) (p : Path) : Except Failure Json := do
  match tree.bytes p with
  | .error .nulInPath => .error .nulInPath
  | .error f => .error (.unloadable p.text (.file f))
  | .ok bytes => do
    let t ← decoded bytes
    match Json.read t with
    | .ok v => .ok v
    | .error (.fault f line) => .error (.unloadable p.text (.json f line))
    | .error .longNumeral => .error .badNumeral
    | .error .halfCharacter => .error .halfCharacter

end FileTree

end Footcite
