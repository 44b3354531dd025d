import Footcite.Table

/-!
# Sources

What a library says about a source: the fields that every source has (`Source`), and those of its kind (`Work`). A
field that the library does not give is `none`.
-/

namespace Footcite

/-- A person, or an institution under its literal name. -/
structure Name where
  family : Option Text := none
  given : Option Text := none
  particle : Option Text := none
  suffix : Option Text := none
  literal : Option Text := none
  deriving Repr, DecidableEq

/-- The kinds of source. -/
inductive SourceKind
  | book
  | chapter
  | article
  | manuscript
  | case
  deriving Repr, DecidableEq

/-- The name of a kind. -/
def SourceKind.text : SourceKind → Text
  | .book => "book"
  | .chapter => "chapter"
  | .article => "article"
  | .manuscript => "manuscript"
  | .case => "case"

/-- A book. -/
structure Book where
  edition : Option Text := none
  editors : List Name := []
  translators : List Name := []
  volume : Option Text := none
  deriving Repr, DecidableEq

/-- A chapter of a book. -/
structure Chapter where
  container : Option Text := none
  editors : List Name := []
  translators : List Name := []
  edition : Option Text := none
  volume : Option Text := none
  page : Option Text := none
  deriving Repr, DecidableEq

/-- An article in a periodical. Pagination is consecutive when it goes on across the issues of a volume; if it is not,
the date of the issue takes the place of the volume. -/
structure Article where
  container : Option Text := none
  containerShort : Option Text := none
  volume : Option Text := none
  page : Option Text := none
  yearAsVolume : Bool := false
  consecutive : Bool := true
  issueDate : Option Text := none
  deriving Repr, DecidableEq

/-- The pages that a place in a manuscript refers to: its own, or those of the publication. -/
inductive PinBasis
  | manuscript
  | page
  deriving Repr, DecidableEq

/-- A manuscript, unpublished or forthcoming. -/
structure Manuscript where
  forthcoming : Bool := false
  container : Option Text := none
  containerShort : Option Text := none
  volume : Option Text := none
  page : Option Text := none
  pinBasis : PinBasis := .manuscript
  url : Option Text := none
  deriving Repr, DecidableEq

/-- A decided case. -/
structure Case where
  reporter : Option Text := none
  volume : Option Text := none
  page : Option Text := none
  court : Option Text := none
  deriving Repr, DecidableEq

/-- The fields of a source that depend on its kind. -/
inductive Work
  | book (b : Book)
  | chapter (c : Chapter)
  | article (a : Article)
  | manuscript (m : Manuscript)
  | case (c : Case)
  deriving Repr, DecidableEq

/-- The kind of a work. -/
def Work.kind : Work → SourceKind
  | .book _ => .book
  | .chapter _ => .chapter
  | .article _ => .article
  | .manuscript _ => .manuscript
  | .case _ => .case

/-- A source of a library. -/
structure Source where
  id : Text
  title : Option Text := none
  authors : List Name := []
  shortTitle : Option Text := none
  year : Option Int := none
  work : Work
  deriving Repr, DecidableEq

/-- Whether the source is a decided case. -/
def Source.isCase (s : Source) : Bool := s.work.kind = .case

/-- Sources by their ids. -/
abbrev Library := Table Source

end Footcite
