import Footcite.Proofs.Citation.Failures
import Footcite.Proofs.Ledger.Choice
import Footcite.Proofs.Walk

/-!
# The ledger and what was read

A ledger follows the occurrences read so far (`Ledger.Follows`) when its last citation is the last of them, and when the
record of each source is, flag aside, what the notes that cite the source come to (`Record.ofNotes`): the first of them,
and the positions of the last few. Every walk keeps the ledger so (`Walk.follows`), whatever the shape of the notes.
-/

namespace Footcite

/-! ## What the occurrences come to -/

/-- The notes that cite a source, one for each citation. -/
def citingNotes (id : Text) (xs : List Site) : List Note := (xs.filter fun x => x.mention.source = id).map Site.note

theorem citingNotes_append (id : Text) (xs ys : List Site) :
    citingNotes id (xs ++ ys) = citingNotes id xs ++ citingNotes id ys := by
  simp [citingNotes]

theorem citingNotes_singleton (id : Text) (x : Site) :
    citingNotes id [x] = if x.mention.source = id then [x.note] else [] := by
  by_cases h : x.mention.source = id <;> simp [citingNotes, h]

theorem mem_citingNotes {id : Text} {xs : List Site} {n : Note} :
    n ∈ citingNotes id xs ↔ ∃ x ∈ xs, x.mention.source = id ∧ x.note = n := by
  simp [citingNotes, and_assoc]

theorem citingNotes_eq_nil {id : Text} {xs : List Site} :
    citingNotes id xs = [] ↔ ∀ x ∈ xs, x.mention.source ≠ id := by
  simp [citingNotes]

namespace Record

/-- The last few positions. -/
def lastFew (positions : List Int) : List Int := positions.drop (positions.length - shortCaseReach)

/-- The record of a source that has been cited in these notes, its flag aside. -/
def ofNotes : List Note → Option Record
  | [] => none
  | n :: rest => some {
      firstPosition := n.position, firstNumber := n.number, recent := lastFew ((n :: rest).map Note.position) }

theorem ofNotes_eq_none {notes : List Note} : ofNotes notes = none ↔ notes = [] := by
  cases notes <;> simp [ofNotes]

/-- Of the last few positions and one more the last few are kept. -/
theorem keepRecent_lastFew (positions : List Int) (p : Int) :
    Ledger.keepRecent (lastFew positions) p = lastFew (positions ++ [p]) := by
  unfold Ledger.keepRecent lastFew
  rw [← List.drop_append_of_le_length (by omega), List.drop_drop]
  congr 1
  simp only [List.length_drop, List.length_append, List.length_singleton, shortCaseReach]
  omega

/-- A citation more is entered in the record there is, or in a new one. -/
theorem ofNotes_append (notes : List Note) (n : Note) :
    ofNotes (notes ++ [n]) =
      some (((ofNotes notes).getD { firstPosition := n.position, firstNumber := n.number }).entered n.position) := by
  cases notes with
  | nil => rfl
  | cons m notes =>
    simp only [ofNotes, List.cons_append, Option.getD_some, entered, keepRecent_lastFew]
    simp

end Record

/-- What an occurrence leaves as the citation just made. -/
def Occurrence.asLast : Occurrence → LastCitation
  | .mention x => {
      source := some x.mention.source, position := x.note.position, inString := x.mention.inString
      pincite := x.mention.pincite.bind Pincite.normalize }
  | .breaker n => { source := none, position := n.position }

/-! ## The invariant -/

/-- **The ledger follows the occurrences**: its last citation is the last of them, and its records are theirs. -/
structure Ledger.Follows (l : Ledger) (past : List Occurrence) : Prop where
  last : l.last = past.getLast?.map Occurrence.asLast
  records : ∀ id, (l.records.get? id).map Record.unflagged =
    Record.ofNotes (citingNotes id (past.filterMap Occurrence.site?))

namespace Ledger

variable {library : Library} {l l' : Ledger} {k k' : Desk} {past : List Occurrence}

theorem Follows.empty : Follows {} [] := ⟨rfl, fun _ => rfl⟩

/-- A source has a record when it has been cited. -/
theorem Follows.get?_eq_none (h : l.Follows past) {id : Text} :
    l.records.get? id = none ↔ ∀ x ∈ past.filterMap Occurrence.site?, x.mention.source ≠ id := by
  rw [← citingNotes_eq_nil, ← Record.ofNotes_eq_none, ← h.records id, Option.map_eq_none_iff]

/-- The source of the last citation has been cited. -/
theorem Follows.get?_of_repeats (h : l.Follows past) {id : Text} {position : Int} (hr : l.repeats id position = true) :
    l.records.get? id ≠ none := by
  rw [Ne, h.get?_eq_none]
  intro hn
  unfold repeats at hr
  rw [h.last] at hr
  cases hp : past.getLast? with
  | none => simp [hp] at hr
  | some o =>
    have ho := List.mem_of_getLast? hp
    cases o with
    | mention x =>
      simp only [hp, Option.map_some, Occurrence.asLast, Option.some.injEq, Bool.and_eq_true, decide_eq_true_eq] at hr
      exact hn x (List.mem_filterMap.mpr ⟨_, ho, rfl⟩) hr.1
    | breaker n => simp [hp, Occurrence.asLast] at hr

/-- A breaker is entered. -/
theorem Follows.interrupt (h : l.Follows past) (n : Note) :
    (l.interrupt n.position).Follows (past ++ [.breaker n]) := by
  refine ⟨by simp [Ledger.interrupt, Occurrence.asLast], fun id => ?_⟩
  rw [List.filterMap_append, show [Occurrence.breaker n].filterMap Occurrence.site? = [] from rfl, List.append_nil]
  exact h.records id

/-- A citation is entered. -/
theorem Follows.cite (hl : library.Keyed) {x : Site} {d : Draft} (h : l.Follows past)
    (hc : Cites library l k x d l' k') : l'.Follows (past ++ [.mention x]) := by
  obtain ⟨opens, l₁, hchoose, rfl⟩ := hc.chosen
  have hid : d.source.id = x.mention.source := hl _ _ hc.source
  have hchoice := choice_of_choose hchoose
  constructor
  · simp [enterCitation, Occurrence.asLast, hid, Pincite.clean_ok hc.pincite]
  · intro id
    rw [List.filterMap_append, show [Occurrence.mention x].filterMap Occurrence.site? = [x] from rfl,
      citingNotes_append, citingNotes_singleton, get?_enterCitation]
    have hr := hchoice.records h.get?_of_repeats id
    rw [h.records id] at hr
    by_cases hi : d.source.id = id
    · rw [if_pos hi] at hr
      rw [if_pos hi, if_pos (hid ▸ hi), Record.ofNotes_append]
      obtain ⟨r, hr, hu⟩ := Option.map_eq_some_iff.mp hr
      simp [hr, hu]
    · rw [if_neg hi] at hr
      rw [if_neg hi, if_neg (hid ▸ hi), List.append_nil, hr]

end Ledger

/-- **Every walk keeps the ledger following** what has been read. -/
theorem Walk.follows {library : Library} (hl : library.Keyed) {l l' : Ledger} {k k' : Desk} {os : List Occurrence}
    {ds : List Draft} (hw : Walk library l k os ds l' k') : ∀ {past : List Occurrence}, l.Follows past →
      l'.Follows (past ++ os) := by
  induction hw with
  | done l k =>
    intro past h
    rwa [List.append_nil]
  | cite hc _ ih =>
    intro past h
    simpa using ih (h.cite hl hc)
  | interrupt _ ih =>
    intro past h
    simpa using ih (h.interrupt _)

/-- The drafts of a walk are of the sources that were mentioned. -/
theorem Walk.mentioned {library : Library} (hl : library.Keyed) {l l' : Ledger} {k k' : Desk} {os : List Occurrence}
    {ds : List Draft} (hw : Walk library l k os ds l' k') :
    ∀ d ∈ ds, ∃ x ∈ os.filterMap Occurrence.site?, x.mention.source = d.source.id := by
  induction hw with
  | done => simp
  | @cite _ _ _ _ _ _ x _ _ _ hc _ ih =>
    refine List.forall_mem_cons.mpr ⟨⟨x, List.mem_cons_self, (hl _ _ hc.source).symm⟩, fun d hd => ?_⟩
    obtain ⟨y, hy, hsource⟩ := ih d hd
    exact ⟨y, List.mem_cons_of_mem _ hy, hsource⟩
  | interrupt _ ih => exact ih

/-- **At the end of a walk every drafted source has a record.** -/
theorem Walk.recorded {library : Library} (hl : library.Keyed) {l : Ledger} {k k' : Desk} {os : List Occurrence}
    {ds : List Draft} (hw : Walk library {} k os ds l k') : ∀ d ∈ ds, l.records.get? d.source.id ≠ none := by
  intro d hd hnone
  obtain ⟨x, hx, hsource⟩ := hw.mentioned hl d hd
  have hfollows : l.Follows ([] ++ os) := hw.follows hl .empty
  exact hfollows.get?_eq_none.mp hnone x hx hsource

end Footcite
