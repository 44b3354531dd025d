import Footcite.Csl.Issue
import Footcite.Files.Tree

/-!
# Loading libraries from files
-/

namespace Footcite.Csl

/-- Loads a library from a file. -/
def load (tree : FileTree) (p : Path) : Logging Library := do
  let v ← tree.json p
  let library ← library p.text v
  Logging.note (.loadedLibrary library.length p.text)
  pure library

/-- Checks a library in a file. -/
def checkFile (tree : FileTree) (p : Path) : Except Failure (List Issue) := check p.text <$> tree.json p

end Footcite.Csl
