import Footcite.Proofs.Citation.Required

/-!
# Sources that can be cited

The full citation of a source asks for more than any other form: for all the fields that another form can require
(`Source.required_subset`), and for an edition that can be read. So a source of which one full citation has been written
is citable (`Source.citable_of_full`), and a citable source is cited in every form that applies to it, with every pincite
that names a place (`Source.Citable.cite`).
-/

namespace Footcite

/-- The full form, or the long form of a case. -/
def Form.IsFull (form : Form) : Prop := form = .longCase ∨ ∃ flag, form = .full flag

/-- **The form applies to the source**: it is for cases only if the source is one, and the number of the note that it
points back to is not too long to be written. -/
abbrev Form.Applies (s : Source) (form : Form) : Prop := form.Suits (fun n => Numeral.fits n = true) s

/-- **A source that can be cited**: it lacks no field of its full citation, and its edition can be read. -/
structure Source.Citable (s : Source) : Prop where
  complete : s.fullFields.find? s.lacks = none
  edition : ¬s.OddEdition

namespace Source

variable {s : Source} {form : Form} {pincite pin parenthetical : Option Text} {k k' : Desk} {text : Text}

/-- Of a citable source no form requires a field that it lacks. -/
theorem Citable.firstLacking (h : s.Citable) (form : Form) : s.firstLacking form = none := by
  have hfull := List.find?_eq_none.mp h.complete
  exact List.find?_eq_none.mpr fun f hf => hfull f (s.required_subset form hf)

/-- **A citable source is cited in every form that applies**, at every desk. -/
theorem Citable.cite (h : s.Citable) (hform : form.Applies s) (hpin : Pincite.clean s.id pincite = .ok pin)
    (parenthetical : Option Text) (k : Desk) : ∃ text k', Gives (s.cite form pincite parenthetical) k text k' := by
  rcases ho : outcome (s.cite form pincite parenthetical) k with ⟨e | text, k'⟩
  · have he : (outcome (s.cite form pincite parenthetical) k).1 = .error e := congrArg Prod.fst ho
    have hnote : e.ofNote = false := (s.cite_demands form hpin).otherwise (h.firstLacking form) k e he
    cases s.cite_fails form pincite parenthetical k e he with
    | source hfault =>
      cases hfault with
      | missing => cases hnote
      | pincite => cases hnote
      | edition hodd => exact absurd hodd h.edition
    | kind hcases hcase =>
      rw [hform.kind hcases] at hcase
      cases hcase
    | note hshort hlong =>
      rw [hform.number _ _ hshort] at hlong
      cases hlong
  · exact ⟨text, k', ho⟩

/-! ## What a full citation shows -/

/-- An edition that is printed can be read. -/
theorem not_oddDigits_of_publication {edition : Option Text} {editors translators : List Name} {year : Option Int}
    {body t : Text} (h : publication edition editors translators year = .ok body) (ht : nonEmpty edition = some t) :
    ¬t.trim.OddDigits := by
  intro hodd
  have herror : printedEdition t = .error .badNumeral := printedEdition_error_iff.mpr ⟨rfl, hodd⟩
  unfold publication at h
  simp only [ht] at h
  obtain ⟨label, hlabel, -⟩ := Except.bind_ok h
  rw [herror] at hlabel
  cases hlabel

/-- A full citation prints the edition of its source. -/
theorem not_oddEdition_of_full {flag : Bool} {spans : Styled} (h : Gives (s.full flag pin) k spans k') :
    ¬s.OddEdition := by
  rintro ⟨t, ht, hodd⟩
  unfold edition? at ht
  unfold full at h
  cases hw : s.work with
  | book b =>
    simp only [hw, fullBook, gives_bind, gives_liftM, gives_pure] at h ht
    obtain ⟨_, _, ⟨_, _, -, body, _, ⟨hbody, -⟩, -⟩, -⟩ := h
    exact not_oddDigits_of_publication hbody ht hodd
  | chapter c =>
    simp only [hw, fullChapter, gives_bind, gives_liftM, gives_pure] at h ht
    obtain ⟨_, _, ⟨_, _, -, _, _, -, body, _, ⟨hbody, -⟩, -⟩, -⟩ := h
    exact not_oddDigits_of_publication hbody ht hodd
  | article | manuscript | case => simp [hw] at ht

/-- **A source that has been cited in full is citable.** -/
theorem citable_of_full (hform : form.IsFull) (h : Gives (s.cite form pincite parenthetical) k text k') :
    s.Citable := by
  obtain ⟨pin, spans, hpin, hspans, -⟩ := gives_cite.mp h
  have hlacking : s.firstLacking form = none := by
    cases hfind : s.firstLacking form with
    | none => rfl
    | some f =>
      have herror : (outcome (s.cite form pincite parenthetical) k).1 = _ :=
        (s.cite_demands form hpin).lacking f hfind k
      rw [h] at herror
      cases herror
  rcases hform with rfl | ⟨flag, rfl⟩
  · cases hw : s.work with
    | case c =>
      have hcase : s.isCase = true := by simp [isCase, hw, Work.kind]
      have hfull : s.required .longCase = s.fullFields := if_pos hcase
      refine ⟨by rwa [← hfull], ?_⟩
      rintro ⟨t, ht, -⟩
      simp [edition?, hw] at ht
    | book | chapter | article | manuscript => simp [inForm, hw] at hspans
  · exact ⟨hlacking, not_oddEdition_of_full hspans⟩

/-- A form that has been written applies, if it is for no case that it points back to a note. -/
theorem applies_of_gives (h : Gives (s.cite form pincite parenthetical) k text k')
    (hshort : ∀ n flag, form = .short n flag → s.isCase = false) : form.Applies s := by
  obtain ⟨pin, spans, -, hspans, -⟩ := gives_cite.mp h
  refine ⟨fun n flag hform => ?_, fun hcases => ?_⟩
  · have hcase := hshort n flag hform
    subst hform
    simp only [inForm, short, hcase, Bool.false_eq_true, if_false, gives_bind, gives_liftM] at hspans
    obtain ⟨_, _, -, numeral, _, ⟨hnumeral, -⟩, -⟩ := hspans
    unfold Numeral.write at hnumeral
    split at hnumeral
    · assumption
    · cases hnumeral
  · cases hw : s.work with
    | case c => simp [isCase, hw, Work.kind]
    | book | chapter | article | manuscript => rcases hcases with rfl | rfl <;> simp [inForm, hw] at hspans

end Source

end Footcite
