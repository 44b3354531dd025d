import Footcite.Text.Basic

/-!
# Paths

A path is kept as its parts. Empty parts and single dots are dropped when a path is read, so that it is shown in its
plain form (`Path.text`); double dots stay, for what they lead to is known only from the files. `Path.canonical` takes
them to go up one part.

Where they do go up, a path leads to a place (`Path.place`), from the root or from the working directory on. A place has
one name, however the paths to it are spelled: what is in the working directory is named from there on, and all else
from the root on, as far as it is known where the working directory is.
-/

namespace Footcite

/-- A path: the slashes it begins with, and its parts. -/
structure Path where
  root : Text
  parts : List Text
  /-- The parts of the working directory from the root on, the last first, if they are known. -/
  home : Option (List Text) := none
  deriving Repr, DecidableEq

/-- A place among the files: whether it is named from the root on, and the parts of its name, the last first. -/
structure Place where
  rooted : Bool := false
  held : List Text := []
  deriving Repr, DecidableEq

namespace Path

/-- The pieces of a text between slashes. -/
def pieces : Text → List Text
  | [] => [[]]
  | c :: rest =>
    if c = '/' then [] :: pieces rest
    else match pieces rest with
      | [] => [[c]]
      | p :: ps => (c :: p) :: ps

/-- The parts of a path as it is written. -/
def partsOf (t : Text) : List Text := (pieces t).filter fun p => !p.isEmpty && p != ['.']

/-- Reads a path. Exactly two slashes at the front are kept; more count as one. -/
def ofText (t : Text) : Path :=
  let slashes := (t.takeWhile (· = '/')).length
  let root : Text := if slashes = 0 then [] else if slashes = 2 then "//" else "/"
  { root, parts := partsOf t }

/-- The path in the working directory of this name, if that is known. -/
def within (home : Option Text) (p : Path) : Path := { p with home := home.map fun t => (partsOf t).reverse }

/-- The plain form of a path. -/
def text (p : Path) : Text :=
  let t := p.root ++ Text.join ['/'] p.parts
  if t.isEmpty then "." else t

/-- Whether a NUL is in the path. -/
def holdsNul (p : Path) : Bool := p.parts.any (·.contains '\x00')

/-- The part that leads up. -/
def up : Text := ".."

/-- Adds a part to parts that are held last first; a double dot takes one away, and stays at the root where there is
none. -/
def climb (root : Text) (held : List Text) (part : Text) : List Text :=
  if part = up then
    match held with
    | p :: ps => if p = up then up :: held else ps
    | [] => if root.isEmpty then [up] else []
  else part :: held

/-- The path with each double dot going up one part; all roots are one. -/
def canonical (p : Path) : Path :=
  ⟨if p.root.isEmpty then [] else "/", (p.parts.foldl (climb p.root) []).reverse, p.home⟩

end Path

namespace Place

/-- The name of a place. -/
def name (w : Place) : Text := (if w.rooted then ['/'] else []) ++ Text.join ['/'] w.held.reverse

/-- The place in the form that is its own: the working directory is not named from the root on. -/
def settled (home : Option (List Text)) (w : Place) : Place := if w.rooted ∧ home = some w.held then {} else w

/-- The directory that a place is in. Nothing is above the root; above a working directory that is not known where it
is, one may go on up. -/
def above (home : Option (List Text)) : Place → Place
  | ⟨true, held⟩ => settled home ⟨true, held.tail⟩
  | ⟨false, []⟩ => match home with
    | some held => settled home ⟨true, held.tail⟩
    | none => ⟨false, [Path.up]⟩
  | ⟨false, part :: held⟩ => if part = Path.up then ⟨false, Path.up :: part :: held⟩ else ⟨false, held⟩

/-- The place of a part in a directory. -/
def enter (home : Option (List Text)) (w : Place) (part : Text) : Place := settled home ⟨w.rooted, part :: w.held⟩

/-- Follows one part. -/
def step (home : Option (List Text)) (w : Place) (part : Text) : Place :=
  if part = Path.up then w.above home else w.enter home part

/-- Whether the working directory is at the place or below it. -/
def isHome (home : Option (List Text)) (w : Place) : Bool :=
  w.held.isEmpty || w.rooted && home.any fun held => w.held.isSuffixOf held

end Place

namespace Path

/-- Where a path begins. -/
def start (p : Path) : Place := if p.root.isEmpty then {} else Place.settled p.home ⟨true, []⟩

/-- The place that the path leads to if each double dot goes up. -/
def place (p : Path) : Place := p.parts.foldl (Place.step p.home) p.start

/-- The places that parts lead through. -/
def placesFrom (home : Option (List Text)) (w : Place) : List Text → List Place
  | [] => []
  | part :: rest => w.step home part :: placesFrom home (w.step home part) rest

/-- The names of the places that the path leads through. -/
def places (p : Path) : List Text := (placesFrom p.home p.start p.parts).map Place.name

end Path

end Footcite
