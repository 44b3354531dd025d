import Footcite.Proofs.Citation.Failures
import Footcite.Proofs.Ledger.Authors
import Footcite.Proofs.Resolution.CaseWindow
import Mathlib.Data.List.Perm.Subperm

/-!
# The ledger in the middle of a walk

A walk through notes may be looked at between two of them, or between two steps in one (`Note.Midway`), whether or not
it comes to its end. Wherever it stands, it is a walk through the first of the occurrences (`Note.Midway.walk`), so the
ledger follows them and has the sources under their authors. What this says of its records, authors and flags is
`Ledger.Consistent`. Hence no record is ever looked up that is not there (`Ledger.consistent_midway`): not when an
author is entered or a form chosen, whichever source comes next, and not when what has been drafted is settled.
-/

namespace Footcite

/-! ## Points of a walk -/

/-- **A point of the walk through notes**: the ledger there, the occurrences read up to it, and what is drafted. -/
inductive Note.Midway (library : Library) (anchors : Anchors) (k : Desk) (notes : List Note) :
    Ledger → List Occurrence → List Draft → Prop
  /-- After some notes, none or all of them. -/
  | between {before after : List Note} {pss : List (List Piece)} {l : Ledger} {k' : Desk} :
      notes = before ++ after → Gives (Note.draftAll library anchors {} before) k (pss, l) k' →
      Midway library anchors k notes l (Note.allOccurrences before) (pss.flatMap (List.filterMap Piece.draft?))
  /-- After some notes and some steps in the next one. -/
  | within {before after : List Note} {n : Note} {done rest : List Step} {pss : List (List Piece)} {ps : List Piece}
      {l₁ l : Ledger} {k₁ k' : Desk} :
      notes = before ++ n :: after → n.steps = done ++ rest →
      Gives (Note.draftAll library anchors {} before) k (pss, l₁) k₁ →
      Gives (Step.takeAll library anchors n l₁ done) k₁ (ps, l) k' →
      Midway library anchors k notes l (Note.allOccurrences before ++ done.filterMap (Step.occurrence? n))
        (pss.flatMap (List.filterMap Piece.draft?) ++ ps.filterMap Piece.draft?)

namespace Note.Midway

variable {library : Library} {anchors : Anchors} {k : Desk} {notes : List Note} {l : Ledger} {past : List Occurrence}
  {ds : List Draft}

/-- What has been done up to a point is a walk. -/
theorem walk (h : Midway library anchors k notes l past ds) : ∃ k', Walk library {} k past ds l k' := by
  cases h with
  | between _ hbefore => exact ⟨_, (Note.draftAll_gives hbefore).2⟩
  | within _ _ hbefore hdone => exact ⟨_, (Note.draftAll_gives hbefore).2.append (Step.takeAll_gives hdone)⟩

/-- What has been read up to a point comes first among the occurrences of the notes. -/
theorem past_prefix (h : Midway library anchors k notes l past ds) : past <+: Note.allOccurrences notes := by
  cases h with
  | between hnotes _ =>
    rw [hnotes, Note.allOccurrences, Note.allOccurrences, List.flatMap_append]
    exact List.prefix_append _ _
  | @within before after n _ _ _ _ _ _ _ _ hnotes hsteps =>
    have hn : n.occurrences = _ := (n.steps_occurrences).symm
    rw [hsteps, List.filterMap_append] at hn
    rw [hnotes, Note.allOccurrences, Note.allOccurrences, List.flatMap_append, List.flatMap_cons, hn, List.append_assoc]
    exact (List.prefix_append_right_inj _).mpr (List.prefix_append _ _)

end Note.Midway

/-! ## The state of the ledger -/

/-- **What holds of the ledger at every point**, with the occurrences read up to there. -/
structure Ledger.Consistent (library : Library) (past : List Occurrence) (l : Ledger) : Prop where
  /-- Whoever stands under an author has a record. -/
  author : ∀ key ids, l.authors.get? key = some ids → ∀ id ∈ ids, ∃ r, l.records.get? id = some r
  /-- The source of the citation just made has a record. -/
  last : ∀ last id, l.last = some last → last.source = some id → ∃ r, l.records.get? id = some r
  /-- Nothing stands under an author twice. -/
  nodup : ∀ key ids, l.authors.get? key = some ids → ids.Nodup
  /-- Nothing stands under two authors. -/
  alone : ∀ key key' ids ids', l.authors.get? key = some ids → l.authors.get? key' = some ids' →
    ∀ id, id ∈ ids → id ∈ ids' → key = key'
  /-- A source with a record stands under an author when it is no case and the author is its own and has a name. -/
  own : ∀ id s, library.get? id = some s → (∃ r, l.records.get? id = some r) →
    ∀ key, (∃ ids, l.authors.get? key = some ids ∧ id ∈ ids) ↔ s.isCase = false ∧ s.authorKey = some key ∧ key ≠ []
  /-- A record is flagged when its source stands under an author with another. -/
  flags : ∀ id r, l.records.get? id = some r →
    (r.hereinafter = true ↔ ∃ key ids, l.authors.get? key = some ids ∧ id ∈ ids ∧ 2 ≤ ids.length)
  /-- The sources with a record are those that have been cited. -/
  recorded : ∀ id, (∃ r, l.records.get? id = some r) ↔
    ∃ x ∈ past.filterMap Occurrence.site?, x.mention.source = id
  /-- A record has the positions of the last five citations, or of all if there are fewer, and they never decrease. -/
  recent : ∀ id r, l.records.get? id = some r →
    (citingNotes id (past.filterMap Occurrence.site?)) ≠ [] ∧
    r.recent <:+ (citingNotes id (past.filterMap Occurrence.site?)).map Note.position ∧
    r.recent.length = min 5 (citingNotes id (past.filterMap Occurrence.site?)).length ∧ r.recent.Pairwise (· ≤ ·)

namespace Ledger

variable {library : Library} {past : List Occurrence} {l : Ledger}

/-- Standing under an author is being in the list of that author. -/
theorem mem_byAuthor {key id : Text} : id ∈ l.byAuthor key ↔ ∃ ids, l.authors.get? key = some ids ∧ id ∈ ids := by
  unfold byAuthor
  cases l.authors.get? key <;> simp

/-- The list of an author is what stands under the author. -/
theorem byAuthor_eq {key : Text} {ids : List Text} (h : l.authors.get? key = some ids) : l.byAuthor key = ids := by
  unfold byAuthor
  rw [h, Option.getD_some]

/-- The positions of the notes that cite a source never decrease if those of all mentions do not. -/
theorem citingNotes_sorted {xs : List Site} (h : xs.Pairwise fun x y => x.note.position ≤ y.note.position) (id : Text) :
    ((citingNotes id xs).map Note.position).Pairwise (· ≤ ·) := by
  rw [citingNotes, List.map_map, List.pairwise_map]
  exact h.filter _

/-- **A ledger that follows the occurrences and has the sources under their authors** is consistent. -/
theorem Follows.consistent (hf : l.Follows past) (hg : l.Grouped library)
    (hpos : (past.filterMap Occurrence.site?).Pairwise fun x y => x.note.position ≤ y.note.position) :
    l.Consistent library past where
  author key ids hids id hid := by
    rw [← byAuthor_eq hids, hg.members] at hid
    exact Option.ne_none_iff_exists'.mp hid.1
  last last id hlast hid := by
    have hrepeats : l.repeats id last.position = true := by simp [repeats, hlast, hid]
    exact Option.ne_none_iff_exists'.mp (hf.get?_of_repeats hrepeats)
  nodup key ids hids := byAuthor_eq hids ▸ hg.nodup key
  alone key key' ids ids' hids hids' id hid hid' := by
    rw [← byAuthor_eq hids, hg.members] at hid
    rw [← byAuthor_eq hids', hg.members] at hid'
    exact Option.some.inj (hid.2.symm.trans hid'.2)
  own id s hs hr key := by
    rw [← mem_byAuthor, hg.members, Library.authorOf_eq_some]
    constructor
    · rintro ⟨-, s', hs', hcase, hkey, hne⟩
      rw [hs, Option.some.injEq] at hs'
      exact ⟨hs' ▸ hcase, hs' ▸ hkey, hne⟩
    · rintro ⟨hcase, hkey, hne⟩
      exact ⟨Option.ne_none_iff_exists'.mpr hr, s, hs, hcase, hkey, hne⟩
  flags id r hr := by
    rw [hg.flags id r hr]
    constructor
    · rintro ⟨key, hkey, hlen⟩
      have hid := (hg.members key id).mpr ⟨by simp [hr], hkey⟩
      obtain ⟨ids, hids, hmem⟩ := mem_byAuthor.mp hid
      exact ⟨key, ids, hids, hmem, by rwa [byAuthor_eq hids] at hlen⟩
    · rintro ⟨key, ids, hids, hmem, hlen⟩
      exact ⟨key, ((hg.members key id).mp (mem_byAuthor.mpr ⟨ids, hids, hmem⟩)).2, by rwa [byAuthor_eq hids]⟩
  recorded id := by
    rw [← Option.ne_none_iff_exists', Ne, hf.get?_eq_none]
    simp only [not_forall, ne_eq, not_not, exists_prop]
  recent id r hr := by
    have hu := hf.records id
    rw [hr] at hu
    cases hn : citingNotes id (past.filterMap Occurrence.site?) with
    | nil =>
      rw [hn] at hu
      cases hu
    | cons n rest =>
      have hsorted := citingNotes_sorted hpos id
      rw [hn] at hu hsorted
      have hrecent : r.recent = Record.lastFew ((n :: rest).map Note.position) :=
        congrArg Record.recent (Option.some.inj hu)
      have hsuffix : r.recent <:+ (n :: rest).map Note.position := hrecent ▸ List.drop_suffix _ _
      refine ⟨List.cons_ne_nil _ _, hsuffix, ?_, hsorted.sublist hsuffix.sublist⟩
      rw [hrecent, Record.lastFew, List.length_drop, List.length_map, shortCaseReach]
      omega

/-! ## What is looked up -/

/-- **A full form has the flag of a record** that is there. -/
theorem record_of_full {s : Source} {position number : Int} {pincite : Option Text} {opens flag : Bool} {l' : Ledger}
    (h : l.choose s position number pincite opens = .ok (.full flag, l')) :
    ∃ r, l'.records.get? s.id = some r ∧ r.hereinafter = flag := by
  have hbegun := get?_begin l s.id position number s.id
  rw [if_pos rfl] at hbegun
  -- The form is full only if the source gets its first record.
  have hfull : l.beginFull s position number = .ok (.full flag, l') := by
    unfold choose at h
    split at h
    · cases h
    · split at h
      · split at h
        · cases h
        · exact h
      · split at h
        · split at h <;> cases h
        · cases h
  unfold beginFull at hfull
  simp only at hfull
  split at hfull
  · cases hfull
    rw [hbegun]
    exact ⟨_, rfl, rfl⟩
  · split at hfull
    · next l₁ he =>
      have hrecords := (enterAuthor_ok he).2.2 s.id
      obtain ⟨r, hr⟩ : ∃ r, l₁.records.get? s.id = some r := by
        rw [hrecords, hbegun]
        split <;> exact ⟨_, rfl⟩
      cases hfull
      exact ⟨r, hr, by rw [hr]; rfl⟩
    · cases hfull

end Ledger

/-- A citation does not fail for a record that is missing. -/
theorem Source.FaultIn.not_noRecord {s : Source} {form : Form} {e : Failure} (h : s.FaultIn form e) (number : Int)
    (id : Text) : e.inNote number ≠ .noRecord id := by
  cases h with
  | source hfault => cases hfault <;> simp [Failure.inNote]
  | kind | note => simp [Failure.inNote]

/-- A draft whose source has a record is not settled in vain for want of one. -/
theorem Draft.settle_finds {l : Ledger} {d : Draft} {r : Record} (hr : l.records.get? d.source.id = some r) :
    FailsFor (fun e => ∀ id, e ≠ .noRecord id) (d.settle l) := by
  unfold Draft.settle
  split
  · exact .pure _
  · rw [hr]
    simp only
    split
    · exact .pure _
    · have hcite := d.source.cite_fails (d.form.withHereinafter r.hereinafter) d.pincite d.parenthetical
      exact (Editing.failsFor_inNote hcite fun e he => he.not_noRecord d.number).bind fun _ => .pure _

/-! ## The invariant -/

/-- **The ledger is consistent at every point of a walk** through notes whose positions never decrease, and every record
that is looked up is there. Whichever source of the library comes next, a form is chosen for it, and a full form has the
flag of the record of its source. What has been drafted has a record when it is settled. -/
theorem Ledger.consistent_midway {library : Library} (hl : library.Keyed) {anchors : Anchors} {k : Desk}
    {notes : List Note} (hpos : notes.Pairwise fun n n' => n.position ≤ n'.position) {l : Ledger}
    {past : List Occurrence} {ds : List Draft} (h : Note.Midway library anchors k notes l past ds) :
    past <+: Note.allOccurrences notes ∧ l.Consistent library past ∧
    (∀ s position number pincite opens, ∃ form l', l.choose s position number pincite opens = .ok (form, l') ∧
      ∀ flag, form = .full flag → ∃ r, l'.records.get? s.id = some r ∧ r.hereinafter = flag) ∧
    ∀ d ∈ ds, (∃ r, l.records.get? d.source.id = some r) ∧
      FailsFor (fun e => ∀ id, e ≠ .noRecord id) (d.settle l) := by
  obtain ⟨k', hw⟩ := h.walk
  have hgrouped := hw.grouped hl .empty
  have hfollows : l.Follows past := hw.follows hl .empty
  have hsites := (Note.allSites_sorted hpos).sublist (h.past_prefix.filterMap Occurrence.site?).sublist
  refine ⟨h.past_prefix, hfollows.consistent hgrouped hsites, fun s position number pincite opens => ?_,
    fun d hd => ?_⟩
  · rcases hchoose : l.choose s position number pincite opens with e | ⟨form, l'⟩
    · exact absurd hchoose (hgrouped.choose_ne_error e)
    · refine ⟨form, l', rfl, fun flag hflag => ?_⟩
      rw [hflag] at hchoose
      exact record_of_full hchoose
  · obtain ⟨r, hr⟩ := Option.ne_none_iff_exists'.mp (hw.recorded hl d hd)
    exact ⟨⟨r, hr⟩, Draft.settle_finds hr⟩

/-- A note with a book, a breaker and a case. -/
def Note.bookThenCase : Note :=
  ⟨1, 8, [.mention { source := "a" } [], .breaker 1, .mention { source := "c", ordinal := 2 } []]⟩

/-- A note with the book of a namesake, the case in its parenthetical, and the first book. -/
def Note.namesakeThenBook : Note := ⟨2, 9, [
  .mention { source := "b", inString := true } [.mention { source := "c", ordinal := 1, inString := true } []],
  .text " and ", .mention { source := "a", ordinal := 2, inString := true } []]⟩

/-- Within the parenthetical of the second note, the first book is flagged already, and the case has two positions. -/
theorem Ledger.consistent_midway_nested : ∃ l past ds,
    Note.Midway Library.small [] Desk.bare [.bookThenCase, .namesakeThenBook] l past ds ∧
    l.Consistent Library.small past ∧ ds.length = 4 ∧ (∀ d ∈ ds, ∃ r, l.records.get? d.source.id = some r) ∧
    (∃ r, l.records.get? "a" = some r ∧ r.hereinafter = true) ∧
    ∃ r, l.records.get? "c" = some r ∧ r.recent = [1, 2] := by
  obtain ⟨ds, _, hends, hlength⟩ := exists_gives_that (s := Desk.bare) (p := fun ds : List Draft => ds.length = 4)
    (x := do
      let before ← Note.draftAll Library.small [] {} [.bookThenCase]
      let done ← Step.takeAll Library.small [] .namesakeThenBook before.2 (Note.namesakeThenBook.steps.take 3)
      pure (before.1.flatMap (List.filterMap Piece.draft?) ++ done.1.filterMap Piece.draft?)) (by decide +kernel)
  simp only [gives_bind, gives_pure] at hends
  obtain ⟨⟨pss, l₁⟩, k₁, hbefore, ⟨ps, l⟩, _, hdone, rfl, rfl⟩ := hends
  have hnotes : [Note.bookThenCase, .namesakeThenBook] = [.bookThenCase] ++ .namesakeThenBook :: [] := rfl
  have hpoint : Note.Midway Library.small [] Desk.bare [.bookThenCase, .namesakeThenBook] l _ _ :=
    .within hnotes (List.take_append_drop 3 _).symm hbefore hdone
  have hpos : [Note.bookThenCase, .namesakeThenBook].Pairwise fun n n' => n.position ≤ n'.position := by decide
  obtain ⟨-, hl, -, hds⟩ := consistent_midway Library.small_keyed hpos hpoint
  have hcited : ∀ id ∈ (["a", "c", "b", "c"] : List Text), ∃ r, l.records.get? id = some r := by
    intro id hid
    rw [hl.recorded id, ← List.mem_map]
    exact hid
  have hauthor : ∀ id ∈ (["a", "b"] : List Text), ∃ s, Library.small.get? id = some s ∧
      s.isCase = false ∧ s.authorKey = some "ash".toList := by
    refine List.forall_mem_cons.mpr ⟨⟨_, rfl, rfl, by decide +kernel⟩, List.forall_mem_singleton.mpr ?_⟩
    exact ⟨_, rfl, rfl, by decide +kernel⟩
  have hsub : (["a", "b"] : List Text) ⊆ ["a", "c", "b", "c"] := by simp
  have hbook : ∀ id ∈ (["a", "b"] : List Text), (∃ r, l.records.get? id = some r) ∧
      ∃ ids, l.authors.get? "ash" = some ids ∧ id ∈ ids := by
    intro id hid
    obtain ⟨s, hs, hcase, hkey⟩ := hauthor id hid
    have hr := hcited id (hsub hid)
    exact ⟨hr, (hl.own id s hs hr "ash").mpr ⟨hcase, hkey, by decide⟩⟩
  refine ⟨l, _, _, hpoint, hl, of_decide_eq_true hlength, fun d hd => (hds d hd).1, ?_, ?_⟩
  · obtain ⟨⟨r, hr⟩, ids, hids, ha⟩ := hbook "a" (by simp)
    have hboth : (["a", "b"] : List Text) ⊆ ids := by
      intro id hid
      obtain ⟨-, ids', hids', hmem⟩ := hbook id hid
      rwa [Option.some.inj (hids.symm.trans hids')]
    exact ⟨r, hr, (hl.flags _ r hr).mpr ⟨_, ids, hids, ha, (List.subperm_of_subset (by decide) hboth).length_le⟩⟩
  · obtain ⟨r, hr⟩ := hcited "c" (by simp)
    obtain ⟨-, hsuffix, hlen, -⟩ := hl.recent _ r hr
    exact ⟨r, hr, hsuffix.eq_of_length hlen⟩

end Footcite
