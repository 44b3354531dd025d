import Footcite.Citation.Form
import Footcite.Citation.Names
import Footcite.Failure

/-!
# The ledger of citations

What has been cited so far in a document: a record for each source, the citation just made, and the sources by each
first author. `Ledger.choose` chooses the form of the next citation from it:

* *id.* when the citation just made is of the same source, and stands in the same note or alone in its note;
* for a case, the short form when it was cited within the last few notes, and the long form otherwise;
* for any other source, the full form at first and a short one from then on.
-/

namespace Footcite

/-- What is kept of a cited source. -/
structure Record where
  /-- The position of the note of the first citation. -/
  firstPosition : Int
  /-- The displayed number of that note. -/
  firstNumber : Int
  /-- Whether another source by the same first author is cited. -/
  hereinafter : Bool := false
  /-- The positions of the notes of the last few citations, the latest last. -/
  recent : List Int := []
  deriving Repr, DecidableEq

/-- The citation just made. -/
structure LastCitation where
  /-- The source; none after a breaker. -/
  source : Option Text
  position : Int
  /-- Whether the note holds another citation. -/
  inString : Bool := false
  pincite : Option Text := none
  deriving Repr, DecidableEq

/-- What has been cited so far. -/
structure Ledger where
  records : Table Record := []
  last : Option LastCitation := none
  /-- The sources by each first author, in the order of their first citations. -/
  authors : Table (List Text) := []
  deriving Repr

/-- A case takes the short form when it was cited less than so many notes ago; so many citations of a source are kept.
-/
def shortCaseReach : Nat := 5

namespace Ledger

/-- Records the first citation of a source. -/
def begin (l : Ledger) (id : Text) (position number : Int) : Ledger :=
  { l with records := l.records.set id { firstPosition := position, firstNumber := number } }

/-- Sets the flag of each source; stops at one that has no record. -/
def flagAll : List Text → Table Record → Except Failure Unit × Table Record
  | [], records => (.ok (), records)
  | id :: rest, records =>
    match records.get? id with
    | some r => flagAll rest (records.set id { r with hereinafter := true })
    | none => (.error (.noRecord id), records)

/-- Enters a source under its first author. From the second source on, all by one author are flagged. -/
def enterAuthor (l : Ledger) (key id : Text) : Except Failure Unit × Ledger :=
  let ids := (l.authors.get? key).getD []
  let ids := if ids.contains id then ids else ids ++ [id]
  let l := { l with authors := l.authors.set key ids }
  if 1 < ids.length then
    let (r, records) := flagAll ids l.records
    (r, { l with records })
  else (.ok (), l)

/-- Whether the citation just made is of the source, and stands in the same note or alone in its own. -/
def repeats (l : Ledger) (id : Text) (position : Int) : Bool :=
  match l.last with
  | some last => last.source = some id && (!last.inString || last.position = position)
  | none => false

/-- Whether a source was cited within the last few notes. -/
def recentlyCited (l : Ledger) (id : Text) (position : Int) : Bool :=
  match l.records.get? id with
  | some r => r.recent.any fun p => position - p < shortCaseReach
  | none => false

/-- A position at the end, and no more positions than are kept. -/
def keepRecent (recent : List Int) (position : Int) : List Int :=
  let all := recent ++ [position]
  all.drop (all.length - shortCaseReach)

/-- Enters a citation. -/
def enterCitation (l : Ledger) (id : Text) (position : Int) (inString : Bool) (pincite : Option Text) : Ledger :=
  { l with
    records := l.records.update id fun r => { r with recent := keepRecent r.recent position }
    last := some { source := some id, position, inString, pincite } }

/-- Enters a breaker: the next citation repeats nothing. -/
def interrupt (l : Ledger) (position : Int) : Ledger := { l with last := some { source := none, position } }

/-- Whether the pincite is that of the citation just made. -/
def repeatsPincite (l : Ledger) (pincite : Option Text) : Bool := pincite.isSome && pincite = l.last.bind (·.pincite)

/-- The first citation of a source other than a case: its record, and its entry under its author if there is one. -/
def beginFull (l : Ledger) (s : Source) (position number : Int) : Except Failure (Form × Ledger) :=
  let l := l.begin s.id position number
  let flagged (l : Ledger) : Form × Ledger := (.full (((l.records.get? s.id).map (·.hereinafter)).getD false), l)
  match nonEmpty s.authorKey with
  | none => .ok (flagged l)
  | some key => match l.enterAuthor key s.id with
    | (.ok (), l) => .ok (flagged l)
    | (.error e, _) => .error e

/-- The form of the next citation, and the ledger with what a first citation enters. The flag says whether the
citation opens a sentence. -/
def choose (l : Ledger) (s : Source) (position number : Int) (pincite : Option Text) (opensSentence : Bool) :
    Except Failure (Form × Ledger) :=
  if l.repeats s.id position then .ok (.id opensSentence (l.repeatsPincite pincite), l)
  else match l.records.get? s.id with
    | none => if s.isCase then .ok (.longCase, l.begin s.id position number) else l.beginFull s position number
    | some r =>
      if s.isCase then .ok (if l.recentlyCited s.id position then .shortCase else .longCase, l)
      else .ok (.short r.firstNumber r.hereinafter, l)

end Ledger

end Footcite
