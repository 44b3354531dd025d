import Footcite.Proofs.Numbering.Process
import Footcite.Proofs.Resolution.Settling

/-!
# Missing fields show at the first mention

Where the notes are not walked through to the end, all steps before the one that fails are a walk (`Step.takeAll_error`,
`Note.draftAll_error`). A step that fails for a missing field writes a citation (`Draft.write_missing`), and this is the
first of its source, for a source that has been cited once is citable. The second walk does not fail at all
(`Note.settles_of_draftAll`). Together this is `Resolution.missing_at_first`.
-/

namespace Footcite

variable {library : Library} {anchors : Anchors} {n : Note} {k : Desk} {e : Failure}

/-! ## Where the first walk fails -/

/-- **Where steps fail**: those before are walked through, and the next one fails. -/
theorem Step.takeAll_error : ∀ {steps : List Step} {l : Ledger} {k : Desk},
    (outcome (Step.takeAll library anchors n l steps) k).1 = .error e → ∃ before s after ds l₁ k₁,
      steps = before ++ s :: after ∧ Walk library l k (before.filterMap (Step.occurrence? n)) ds l₁ k₁ ∧
      (outcome (Step.take library anchors n l₁ s) k₁).1 = .error e
  | [], _, _, h => by cases h
  | s :: steps, l, k, h => by
    rcases outcome_bind_error h with h | ⟨⟨pieces, l₁⟩, k₁, hs, h⟩
    · exact ⟨[], s, steps, [], l, k, rfl, .done l k, h⟩
    · rcases outcome_bind_error h with h | ⟨_, _, -, h⟩
      · obtain ⟨before, s', after, ds, l₂, k₂, rfl, hw, hfails⟩ := Step.takeAll_error h
        have hw' := (Step.take_gives hs).append hw
        rw [← Step.occurrences_cons] at hw'
        exact ⟨s :: before, s', after, _, l₂, k₂, rfl, hw', hfails⟩
      · cases h

/-- **Where notes fail**: those before and the steps before are walked through, and the next step fails. -/
theorem Note.draftAll_error : ∀ {notes : List Note} {l : Ledger} {k : Desk},
    (outcome (Note.draftAll library anchors l notes) k).1 = .error e → ∃ past n rest before s after ds l₁ k₁,
      notes = past ++ n :: rest ∧ n.steps = before ++ s :: after ∧
      Walk library l k (allOccurrences past ++ before.filterMap (Step.occurrence? n)) ds l₁ k₁ ∧
      (outcome (Step.take library anchors n l₁ s) k₁).1 = .error e
  | [], _, _, h => by cases h
  | n :: notes, l, k, h => by
    rcases outcome_bind_error h with h | ⟨⟨pieces, l₁⟩, k₁, hn, h⟩
    · obtain ⟨before, s, after, ds, l₁, k₁, hsteps, hw, hfails⟩ := Step.takeAll_error h
      exact ⟨[], n, notes, before, s, after, ds, l₁, k₁, rfl, hsteps, hw, hfails⟩
    · rcases outcome_bind_error h with h | ⟨_, _, -, h⟩
      · obtain ⟨past, n', rest, before, s, after, ds, l₂, k₂, rfl, hsteps, hw, hfails⟩ := Note.draftAll_error h
        have hfirst := Step.takeAll_gives hn
        rw [n.steps_occurrences] at hfirst
        have hall : allOccurrences (n :: past) = n.occurrences ++ allOccurrences past := List.flatMap_cons
        have hw' := hfirst.append hw
        rw [← List.append_assoc, ← hall] at hw'
        exact ⟨n :: past, n', rest, before, s, after, _, l₂, k₂, rfl, hsteps, hw', hfails⟩
      · cases h

/-! ## Missing fields -/

/-- Anchors are bound, or a note is anchored twice. -/
theorem Anchors.ofNotes_error {notes : List Note} (h : ofNotes notes = .error e) :
    ∃ ref first again, e = .anchoredTwice ref first again := by
  unfold ofNotes at h
  generalize ([] : Anchors) = a at h
  generalize entries notes = es at h
  induction es generalizing a with
  | nil => cases h
  | cons entry rest ih =>
    rw [List.foldlM_cons] at h
    rcases Except.bind_error h with h | ⟨a', -, h⟩
    · simp only [bind] at h
      split at h
      · cases h
        exact ⟨_, _, _, rfl⟩
      · cases h
    · exact ih a' h

/-- **A citation that is not written for a missing field** requires the field of its source. -/
theorem Draft.write_missing {l : Ledger} {m : Mention} {parenthetical : Option Text} {before : List Segment} {id : Text}
    {field : Field} {note : Option Int}
    (h : (outcome (Draft.write library n l m parenthetical before) k).1 = .error (.missingField id field note)) :
    ∃ s pincite opens form l₁, library.get? m.source = some s ∧
      l.choose s n.position n.number pincite opens = .ok (form, l₁) ∧ s.firstLacking form = some field ∧
      id = s.id ∧ note = some n.number := by
  unfold Draft.write at h
  cases hs : library.get? m.source with
  | none =>
    rw [hs] at h
    cases h
  | some s =>
    rw [hs] at h
    rcases outcome_bind_error h with h | ⟨pincite, _, -, h⟩
    · obtain ⟨e', hclean, he⟩ := Editing.outcome_inNote_error h
      obtain ⟨p, -, -, rfl⟩ := Pincite.clean_error hclean
      cases he
    rcases outcome_bind_error h with hchoose | ⟨⟨form, l₁⟩, _, hchosen, h⟩
    · obtain ⟨_, hrecord, -⟩ := Ledger.choose_error hchoose
      cases hrecord
    rcases outcome_bind_error h with h | ⟨_, _, -, h⟩
    · obtain ⟨e', hcite, he⟩ := Editing.outcome_inNote_error h
      have hmissing : ∃ note', e' = .missingField id field note' := by
        unfold Failure.inNote at he
        split at he
        · cases he
          exact ⟨_, rfl⟩
        · cases he
        · exact ⟨_, he⟩
      obtain ⟨note', rfl⟩ := hmissing
      obtain ⟨rfl, rfl, hlacking⟩ := s.cite_missing hcite
      cases he
      exact ⟨s, pincite, _, form, l₁, rfl, (gives_liftM.mp hchosen).1, hlacking, rfl, rfl⟩
    · cases h

/-- Only a citation fails for a missing field. -/
theorem Step.take_missing {s : Step} {l : Ledger} {id : Text} {field : Field} {note : Option Int}
    (h : (outcome (Step.take library anchors n l s) k).1 = .error (.missingField id field note)) :
    ∃ m parenthetical preceding, s = .cite m parenthetical preceding ∧
      (outcome (Draft.write library n l m parenthetical preceding) k).1 = .error (.missingField id field note) := by
  cases s with
  | text t => cases h
  | interrupt => cases h
  | use ref =>
    rcases outcome_bind_error h with h | ⟨number, _, -, h⟩
    · have hlookup : anchors.lookup ref n.number = .error (.missingField id field note) := h
      unfold Anchors.lookup at hlookup
      split at hlookup <;> cases hlookup
    · rcases outcome_bind_error h with h | ⟨_, _, -, h⟩
      · cases (Numeral.write_error h).1
      · cases h
  | cite m parenthetical preceding =>
    rcases outcome_bind_error h with h | ⟨_, _, -, h⟩
    · exact ⟨m, parenthetical, preceding, rfl, h⟩
    · cases h

/-- What the form of a first citation requires is what a full citation requires. -/
theorem Ledger.Choice.required_of_first {l l' : Ledger} {s : Source} {position number : Int} {pincite : Option Text}
    {opens : Bool} {form : Form} (h : l.Choice s position number pincite opens form l')
    (hrep : l.repeats s.id position = true → l.records.get? s.id ≠ none) (hn : l.records.get? s.id = none) :
    s.required form = s.fullFields := by
  obtain ⟨hlong, hfull⟩ := h.form_of_first hrep hn
  cases hcase : s.isCase with
  | true =>
    rw [hlong hcase]
    exact if_pos hcase
  | false =>
    obtain ⟨flag, rfl⟩ := hfull hcase
    rfl

/-! ## The first mention -/

/-- **The field is missing where a source is mentioned first**: what is read before is cited without a failure, and
mentions other sources; the citation of this mention fails for the field, which is the first that the source lacks of
those that a full citation requires. -/
def Note.MissingAtFirst (library : Library) (notes : List Note) (k : Desk) (id : Text) (field : Field)
    (note : Option Int) : Prop :=
  ∃ before x after ds l k' s, Note.allOccurrences notes = before ++ Occurrence.mention x :: after ∧
    Walk library {} k before ds l k' ∧ (∀ y ∈ before.filterMap Occurrence.site?, y.mention.source ≠ id) ∧
    x.mention.source = id ∧ note = some x.note.number ∧
    (∃ preceding, (outcome (Draft.write library x.note l x.mention x.parenthetical preceding) k').1 =
      .error (.missingField id field note)) ∧
    library.get? id = some s ∧ s.fullFields.find? s.lacks = some field

variable {notes : List Note} {id : Text} {field : Field} {note : Option Int}

/-- What the first walk finds missing is missing at the first mention of its source. -/
theorem Note.missingAtFirst_of_draftAll (hl : library.Keyed)
    (h : (outcome (Note.draftAll library anchors {} notes) k).1 = .error (.missingField id field note)) :
    MissingAtFirst library notes k id field note := by
  obtain ⟨past, n, rest, before, s, after, ds, l, k', rfl, hsteps, hw, hfails⟩ := Note.draftAll_error h
  obtain ⟨m, parenthetical, preceding, rfl, hwrite⟩ := Step.take_missing hfails
  obtain ⟨s, pincite, opens, form, l₁, hs, hchoose, hlacking, rfl, rfl⟩ := Draft.write_missing hwrite
  have hid := hl _ _ hs
  have hfollows : l.Follows (allOccurrences past ++ before.filterMap (Step.occurrence? n)) := hw.follows hl .empty
  -- A source that has been cited lacks nothing that any form requires.
  have hfirst : ∀ y ∈ (allOccurrences past ++ before.filterMap (Step.occurrence? n)).filterMap Occurrence.site?,
      y.mention.source ≠ s.id := by
    intro y hy hsource
    have hcitable : s.Citable := hw.citable hl .empty (by simp) y hy s (by rw [hsource, hid, hs])
    rw [hcitable.firstLacking form] at hlacking
    cases hlacking
  have hrequired := (Ledger.choice_of_choose hchoose).required_of_first hfollows.get?_of_repeats
    (hfollows.get?_eq_none.mpr hfirst)
  rw [Source.firstLacking, hrequired] at hlacking
  refine ⟨_, ⟨n, m, parenthetical⟩, after.filterMap (Step.occurrence? n) ++ allOccurrences rest, ds, l, k', s, ?_,
    hw, hfirst, hid.symm, rfl, ⟨preceding, hwrite⟩, hid ▸ hs, hlacking⟩
  have hoccurrences := n.steps_occurrences
  rw [hsteps, List.filterMap_append, Step.occurrences_cons] at hoccurrences
  simp [allOccurrences, ← hoccurrences, Step.occurrence?]

namespace Resolution

/-- What is found missing when notes are resolved is missing at the first mention of its source. -/
theorem missingAtFirst_of_ofNotes (hl : library.Keyed)
    (h : (outcome (ofNotes library notes) k).1 = .error (.missingField id field note)) :
    Note.MissingAtFirst library notes k id field note := by
  rcases ofNotes_error hl h with h | ⟨crossrefs, -, h⟩
  · obtain ⟨_, _, _, htwice⟩ := Anchors.ofNotes_error h
    cases htwice
  · exact Note.missingAtFirst_of_draftAll hl h

/-- **Missing fields show at the first mention, and the second walk does not fail.** Where a citation of a source in full
is written, it is written in all forms that apply, with all pincites that name a place. So once the first walk has come
to its end, all that it has drafted is settled; and if notes are not resolved for a missing field, the field is missing
where its source is mentioned first. -/
theorem missing_at_first (hl : library.Keyed) :
    (∀ (s : Source) (full : Form) pincite parenthetical k text k', full.IsFull →
      Gives (s.cite full pincite parenthetical) k text k' → ∀ form : Form, form.Applies s →
      ∀ pincite pin, Pincite.clean s.id pincite = .ok pin → ∀ parenthetical k, ∃ text k',
        Gives (s.cite form pincite parenthetical) k text k') ∧
    (∀ anchors notes k pss l k', Gives (Note.draftAll library anchors {} notes) k (pss, l) k' → ∀ k₁, ∃ qss k₂,
      Gives (pss.mapM fun ps => ps.mapM (Piece.settle l)) k₁ qss k₂) ∧
    ∀ notes k id field note, (outcome (ofNotes library notes) k).1 = .error (.missingField id field note) →
      Note.MissingAtFirst library notes k id field note := by
  refine ⟨?_, fun _ _ _ _ _ _ => Note.settles_of_draftAll hl, fun _ _ _ _ _ => missingAtFirst_of_ofNotes hl⟩
  intro s full pincite parenthetical k text k' hfull h form hform pincite' pin hpin parenthetical' k₁
  exact (Source.citable_of_full hfull h).cite hform hpin parenthetical' k₁

end Resolution

/-- Two books, the second of which has a short title only. -/
def Library.halfTitled : Library := Table.ofEntries (List.map (fun s : Source => (s.id, s)) [
  { id := "a", title := some "A", authors := [{ family := some "Ash" }], work := .book {} },
  { id := "b", shortTitle := some "B", authors := [{ family := some "Ash" }], work := .book {} }])

/-- The first book is cited twice before the second, whose title is then missing. -/
theorem Resolution.missing_at_first_title :
    let notes := [Note.citing 1 8 "a", Note.citing 2 9 "a", Note.citing 3 10 "b", Note.citing 4 11 "a"]
    (outcome (ofNotes Library.halfTitled notes) Desk.bare).1 = .error (.missingField "b" .title (some 10)) ∧
      Note.MissingAtFirst Library.halfTitled notes Desk.bare "b" .title (some 10) := by
  intro notes
  have herror : (outcome (ofNotes Library.halfTitled notes) Desk.bare).1 =
      .error (.missingField "b" .title (some 10)) := Except.eq_error_of_map (f := fun _ => ()) (by decide +kernel)
  exact ⟨herror, (missing_at_first (Library.keyed_ofEntries _)).2.2 _ _ _ _ _ herror⟩

/-- A book without an author. -/
def Source.unauthored : Source := { id := "a", title := some "A", shortTitle := some "A", work := .book {} }

/-- A note is not pointed back to under a number that is too long. -/
theorem Source.unauthored_short {n : Int} (h : Numeral.fits n = false) (k : Desk) :
    (outcome (unauthored.cite (.short n false) none none) k).1 = .error .longNumeral := by
  have hwrite : Numeral.write n = .error .longNumeral := by simp [Numeral.write, h]
  have hhead : Gives (unauthored.shortHead false) k (Styled.bold "A") k := rfl
  have hshort : (outcome (unauthored.short n false none) k).1 = .error .longNumeral := by
    unfold short
    rw [if_neg (by decide), outcome_bind, hhead]
    exact outcome_bind_of_error hwrite
  have hstyled : (outcome (unauthored.citeStyled (.short n false) none none) k).1 = .error .longNumeral := by
    unfold citeStyled
    rw [outcome_bind, Pincite.clean, outcome_liftM]
    exact outcome_bind_of_error hshort
  rw [cite, ← bind_pure_comp]
  exact outcome_bind_of_error hstyled

/-- **A number too long to be written** keeps a book that can be cited in full from being cited by pointing back. -/
theorem Source.full_but_not_short : ∃ s : Source, (∀ k, ∃ text k', Gives (s.cite (.full false) none none) k text k') ∧
    ∃ n, ∀ k, (outcome (s.cite (.short n false) none none) k).1 = .error .longNumeral :=
  ⟨unauthored, fun k => ⟨_, k, rfl⟩, 1 + farOffset, unauthored_short fits_farOffset⟩

end Footcite
