import Footcite.Csl.Value

/-!
# Sources from CSL-JSON items

`Csl.source?` makes a source of an item. An item without an id, or of a kind that is not supported, makes none.
-/

namespace Footcite.Csl

/-- The kinds of item that are supported. -/
inductive Kind
  | book
  | chapter
  /-- An article in a periodical with consecutive pagination. -/
  | article
  /-- An article in a magazine or newspaper, each issue of which begins at page one. -/
  | issueArticle
  | manuscript
  | case
  deriving Repr, DecidableEq

/-- The types of CSL items with their kinds. -/
def kinds : Table Kind := [
  ("book", .book), ("chapter", .chapter), ("article-journal", .article), ("article", .article),
  ("article-magazine", .issueArticle), ("article-newspaper", .issueArticle), ("manuscript", .manuscript),
  ("legal_case", .case)]

/-- The fields of an article. -/
def article (item : Item) (consecutive : Bool) : Except Failure Article := do
  let issueDate ← if consecutive then pure none else item.issueDate
  pure {
    container := item.text? "container-title"
    containerShort := text? (item.either "container-title-short" "journalAbbreviation")
    volume := item.text? "volume"
    page := firstPage? (item.member "page")
    yearAsVolume := filled (item.member "volume-is-year")
    consecutive, issueDate }

/-- The fields of a manuscript. It is forthcoming by its status, by being part of something, or by having a year,
unless the status then says that it is unpublished. -/
def manuscript (item : Item) (year : Option Int) : Manuscript :=
  let container := item.text? "container-title"
  let status := ((item.text? "status").getD []).lower
  let page := firstPage? (item.member "page")
  let unpublished := Text.holds "unpublished" status
  { forthcoming := Text.holds "forthcoming" status || container.isSome || (year.isSome && !unpublished)
    container
    containerShort := text? (item.either "container-title-short" "journalAbbreviation")
    volume := item.text? "volume"
    page
    pinBasis := if page.isSome then .page else .manuscript
    url := item.text? "URL" }

/-- The fields of an item that depend on its kind. -/
def work (item : Item) (year : Option Int) : Kind → Except Failure Work
  | .book => .ok (.book {
      edition := item.text? "edition"
      editors := names (item.member "editor")
      translators := names (item.member "translator")
      volume := item.text? "volume" })
  | .chapter => .ok (.chapter {
      container := item.text? "container-title"
      editors := names (item.member "editor")
      translators := names (item.member "translator")
      edition := item.text? "edition"
      volume := item.text? "volume"
      page := firstPage? (item.member "page") })
  | .article => .article <$> article item true
  | .issueArticle => .article <$> article item false
  | .manuscript => .ok (.manuscript (manuscript item year))
  | .case => .ok (.case {
      reporter := item.text? "container-title"
      volume := item.text? "volume"
      page := firstPage? (item.member "page")
      court := item.text? "authority" })

/-- The source of an item. -/
def source? (item : Item) : Except Failure (Option Source) := do
  match item.text? "id" with
  | none => pure none
  | some id => do
    let year ← item.year
    match (item.text? "type").bind kinds.get? with
    | none => pure none
    | some kind => do
      let work ← work item year kind
      pure (some {
        id
        title := item.text? "title"
        authors := names (item.member "author")
        shortTitle := text? (item.either "title-short" "shortTitle")
        year, work })

end Footcite.Csl
