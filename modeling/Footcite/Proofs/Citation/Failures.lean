import Footcite.Citation.Basic
import Footcite.Proofs.Gives
import Footcite.Proofs.Text.Digits

/-!
# Why citations fail

A citation fails for one of a few reasons (`Source.FaultIn`), which name the source itself and no note
(`Source.cite_fails`): the note is added by whoever asks for the citation.
-/

namespace Footcite

/-- The edition that a full citation of the source prints. -/
def Source.edition? (s : Source) : Option Text :=
  match s.work with
  | .book b => nonEmpty b.edition
  | .chapter c => nonEmpty c.edition
  | .article _ | .manuscript _ | .case _ => none

/-- The edition of the source is a run of digits that is no numeral. -/
def Source.OddEdition (s : Source) : Prop := ∃ t, s.edition? = some t ∧ t.trim.OddDigits

/-- A reason that lies in the source for which a citation of it can fail. -/
inductive Source.Fault (s : Source) : Failure → Prop
  | missing (field : Field) : s.Fault (.missingField s.id field none)
  | pincite (p : Text) : s.Fault (.emptyPincite p s.id none)
  | edition : s.OddEdition → s.Fault .badNumeral

/-- The form is one for cases. -/
def Form.ForCases (form : Form) : Prop := form = .longCase ∨ form = .shortCase

/-- A reason for which a citation in a form can fail. -/
inductive Source.FaultIn (s : Source) (form : Form) : Failure → Prop
  | source {e : Failure} : s.Fault e → s.FaultIn form e
  | kind : form.ForCases → s.isCase = false → s.FaultIn form (.notACase s.id s.work.kind)
  /-- The number of the note that is pointed back to is too long. -/
  | note {n : Int} {flag : Bool} : form = .short n flag → Numeral.fits n = false → s.FaultIn form .longNumeral

/-- A form that suits a source: it points back to the number of a note, and if it is for cases, the source is one. -/
structure Form.Suits (shown : Int → Prop) (s : Source) (form : Form) : Prop where
  number : ∀ n flag, form = .short n flag → shown n
  kind : form.ForCases → s.isCase = true

/-- Another flag suits as well. -/
theorem Form.Suits.withHereinafter {shown : Int → Prop} {s : Source} {form : Form} (h : form.Suits shown s)
    (flag : Bool) : (form.withHereinafter flag).Suits shown s := by
  cases form with
  | short n flag' =>
    refine ⟨fun m _ hm => ?_, fun hc => by rcases hc with hc | hc <;> cases hc⟩
    cases hm
    exact h.number n flag' rfl
  | full => exact ⟨fun _ _ hm => (by cases hm), fun hc => by rcases hc with hc | hc <;> cases hc⟩
  | id | shortCase | longCase => exact h

/-- A text that is given is not empty. -/
theorem nonEmpty_eq_some {field : Option Text} {t : Text} : nonEmpty field = some t ↔ field = some t ∧ t ≠ [] := by
  rw [nonEmpty, Option.filter_eq_some_iff]
  simp

/-- A number that is not written is too long. -/
theorem Numeral.write_error {n : Int} {e : Failure} (h : write n = .error e) : e = .longNumeral ∧ fits n = false := by
  unfold write at h
  split at h
  · cases h
  · next hfits =>
    cases h
    exact ⟨rfl, by simpa using hfits⟩

/-- A number that is written is written as its numeral. -/
theorem Numeral.write_eq_ok {number : Int} {t : Text} :
    write number = .ok t ↔ fits number = true ∧ t = ofInt number := by
  unfold write
  split
  · next h => simp [h, eq_comm]
  · next h => simp [h]

/-- A pincite is refused only as a bare "at". -/
theorem Pincite.clean_error {id : Text} {pincite : Option Text} {e : Failure} (h : clean id pincite = .error e) :
    ∃ p, pincite = some p ∧ p.trim.lower = "at" ∧ e = .emptyPincite p.trim id none := by
  unfold clean at h
  split at h
  · cases h
  · next p =>
    split at h
    · next hat =>
      cases h
      exact ⟨p, rfl, hat, rfl⟩
    · cases h

/-- A clean pincite is the normalised one. -/
theorem Pincite.clean_ok {id : Text} {raw pincite : Option Text} (h : clean id raw = .ok pincite) :
    pincite = raw.bind normalize := by
  cases raw with
  | none =>
    cases h
    rfl
  | some clause =>
    simp only [clean] at h
    split at h
    · cases h
    · cases h
      rfl

/-! ## At the desk -/

namespace FailsFor

variable {P : Failure → Prop}

theorem note (e : Event) : FailsFor P (Editing.note e) := fun _ _ h => by cases h

theorem abbreviate (name : Text) (override : Option Text) : FailsFor P (Editing.abbreviate name override) :=
  fun _ _ h => by cases h

end FailsFor

/-! ## Citations -/

namespace Source

open Editing

variable (s : Source)

theorem given_fault {field : Field} {e : Failure} (h : s.given field = .error e) : s.Fault e := by
  unfold given at h
  split at h
  · split at h
    · cases h
      exact .missing field
    · cases h
  · cases h
    exact .missing field

theorem given_fails (field : Field) : FailsFor s.Fault (liftM (s.given field) : Editing Text) :=
  .liftM fun _ h => s.given_fault h

/-- An edition is printed, or it is a run of digits that is no numeral. -/
theorem printedEdition_error_iff {edition : Text} {e : Failure} :
    printedEdition edition = .error e ↔ e = .badNumeral ∧ edition.trim.OddDigits := by
  simp only [printedEdition, Text.oddDigits_iff]
  constructor
  · intro h
    split at h
    · cases h
    · next hdigits =>
      simp only [Bool.or_eq_true, List.isEmpty_iff, Bool.not_eq_true', not_or, Bool.not_eq_false,
        List.all_eq_true] at hdigits
      split at h
      · cases h
      · next hnone =>
        cases h
        exact ⟨rfl, hdigits.1, hdigits.2, hnone⟩
  · rintro ⟨rfl, hne, hdigits, hnone⟩
    have hall : edition.trim.all isDigitLike = true := List.all_eq_true.mpr hdigits
    have hempty : edition.trim.isEmpty = false := by simpa using hne
    simp only [hall, hempty, hnone, Bool.not_true, Bool.or_self, Bool.false_eq_true, if_false]

theorem publication_error {edition : Option Text} {editors translators : List Name} {year : Option Int} {e : Failure}
    (h : publication edition editors translators year = .error e) :
    e = .badNumeral ∧ ∃ t, nonEmpty edition = some t ∧ t.trim.OddDigits := by
  unfold publication at h
  extract_lets rest at h
  split at h
  · next t ht =>
    rcases Except.bind_error h with h | ⟨_, _, h⟩
    · obtain ⟨rfl, hodd⟩ := printedEdition_error_iff.mp h
      exact ⟨rfl, t, ht, hodd⟩
    · cases h
  · cases h

/-- The parenthesis after a citation fails for the edition of its source. -/
theorem publication_fails {edition : Option Text} (hs : s.edition? = nonEmpty edition)
    (editors translators : List Name) (year : Option Int) :
    FailsFor s.Fault (liftM (publication edition editors translators year) : Editing Text) := by
  refine .liftM fun _ h => ?_
  obtain ⟨rfl, t, ht, hodd⟩ := publication_error h
  exact .edition ⟨t, hs.trans ht, hodd⟩

theorem longCase_fault {c : Case} {pincite : Option Text} {e : Failure} (h : s.longCase c pincite = .error e) :
    s.Fault e := by
  unfold longCase at h
  rcases Except.bind_error h with h | ⟨_, _, h⟩
  · exact s.given_fault h
  rcases Except.bind_error h with h | ⟨_, _, h⟩
  · exact s.given_fault h
  rcases Except.bind_error h with h | ⟨_, _, h⟩
  · exact s.given_fault h
  rcases Except.bind_error h with h | ⟨_, _, h⟩
  · exact s.given_fault h
  cases h

theorem clean_fault {pincite : Option Text} {e : Failure} (h : Pincite.clean s.id pincite = .error e) : s.Fault e := by
  obtain ⟨p, -, -, rfl⟩ := Pincite.clean_error h
  exact .pincite _

theorem shortName_fails : FailsFor s.Fault s.shortName := by
  unfold shortName
  cases nonEmpty s.shortTitle with
  | some t => exact (FailsFor.pure t).bind fun _ => .pure _
  | none => exact (FailsFor.note _).bind fun _ => (s.given_fails .title).bind fun _ => .pure _

theorem periodical_fails (short : Option Text) : FailsFor s.Fault (s.periodical short) :=
  (s.given_fails .container).bind fun name => (FailsFor.abbreviate name short).bind fun _ => .pure _

theorem fullBook_fails {b : Book} (hs : s.edition? = nonEmpty b.edition) : FailsFor s.Fault (s.fullBook b) :=
  (s.given_fails .title).bind fun _ => (s.publication_fails hs _ _ _).bind fun _ => .pure _

theorem fullChapter_fails {c : Chapter} (hs : s.edition? = nonEmpty c.edition) : FailsFor s.Fault (s.fullChapter c) :=
  (s.given_fails .title).bind fun _ => (s.given_fails .container).bind fun _ =>
    (s.publication_fails hs _ _ _).bind fun _ => .pure _

theorem fullArticle_fails (a : Article) : FailsFor s.Fault (s.fullArticle a) := by
  unfold fullArticle
  refine (s.given_fails .title).bind fun title => (s.given_fails .page).bind fun page => ?_
  refine (s.periodical_fails _).bind fun journal => ?_
  split
  · exact (s.given_fails .volume).bind fun _ => .pure _
  · exact .pure _

theorem fullManuscript_fails (m : Manuscript) : FailsFor s.Fault (s.fullManuscript m) := by
  unfold fullManuscript
  refine (s.given_fails .title).bind fun title => ?_
  cases nonEmpty m.container with
  | some _ =>
    refine (s.periodical_fails _).bind fun journal => (FailsFor.pure _).bind fun place => ?_
    cases m.pinBasis <;> cases nonEmpty m.page <;> exact .pure _
  | none =>
    refine (FailsFor.pure _).bind fun place => ?_
    cases m.pinBasis <;> cases nonEmpty m.page <;> exact .pure _

theorem putTogether_fails (hereinafter : Bool) (pincite : Option Text) (parts : FullParts) :
    FailsFor s.Fault (s.putTogether hereinafter pincite parts) := by
  unfold putTogether
  cases hereinafter with
  | true => exact (s.shortName_fails.bind fun _ => .pure _).bind fun _ => .pure _
  | false => exact (FailsFor.pure _).bind fun _ => .pure _

theorem full_fails (hereinafter : Bool) (pincite : Option Text) : FailsFor s.Fault (s.full hereinafter pincite) := by
  unfold full
  cases hw : s.work with
  | book b =>
    have hs : s.edition? = nonEmpty b.edition := by rw [edition?, hw]
    exact (s.fullBook_fails hs).bind fun _ => s.putTogether_fails _ _ _
  | chapter c =>
    have hs : s.edition? = nonEmpty c.edition := by rw [edition?, hw]
    exact (s.fullChapter_fails hs).bind fun _ => s.putTogether_fails _ _ _
  | article a => exact (s.fullArticle_fails a).bind fun _ => s.putTogether_fails _ _ _
  | manuscript m => exact (s.fullManuscript_fails m).bind fun _ => s.putTogether_fails _ _ _
  | case c => exact .liftM fun _ => s.longCase_fault

theorem shortCase_fails (pincite : Option Text) : FailsFor s.Fault (s.shortCase pincite) :=
  (s.given_fails .reporter).bind fun _ => (s.given_fails .volume).bind fun _ => (s.given_fails .page).bind fun _ =>
    s.shortName_fails.bind fun _ => .pure _

theorem shortHead_fails (hereinafter : Bool) : FailsFor s.Fault (s.shortHead hereinafter) := by
  unfold shortHead
  simp only
  split
  · exact s.shortName_fails
  · split
    · exact s.shortName_fails.bind fun _ => .pure _
    · exact .pure _

theorem short_fails (note : Int) (hereinafter : Bool) (pincite : Option Text) :
    FailsFor (s.FaultIn (.short note hereinafter)) (s.short note hereinafter pincite) := by
  unfold short
  split
  · exact (s.shortCase_fails pincite).imp fun _ => .source
  · refine ((s.shortHead_fails hereinafter).imp fun _ => .source).bind fun _ =>
      (FailsFor.liftM fun e h => ?_).bind fun _ => .pure _
    obtain ⟨rfl, hfits⟩ := Numeral.write_error h
    exact .note rfl hfits

/-- What is no case. -/
theorem isCase_of_ne {s : Source} (h : ∀ c, s.work ≠ .case c) : s.isCase = false := by
  unfold isCase
  cases hw : s.work with
  | case c => exact absurd hw (h c)
  | book | chapter | article | manuscript => rfl

theorem inForm_fails (form : Form) (pincite : Option Text) :
    FailsFor (s.FaultIn form) (s.inForm form pincite) := by
  unfold inForm
  split
  · exact (s.full_fails _ pincite).imp fun _ => .source
  · exact s.short_fails _ _ pincite
  · exact .pure _
  · exact .liftM fun _ h => .source (s.longCase_fault h)
  · exact (s.shortCase_fails pincite).imp fun _ => .source
  · next hw => exact .throw (.kind (.inl rfl) (isCase_of_ne hw))
  · next hw => exact .throw (.kind (.inr rfl) (isCase_of_ne hw))

/-- **A citation fails for a reason that has to do with its source**, its pincite or the number that it points back to,
and names no note as the place of the fault. -/
theorem cite_fails (form : Form) (pincite parenthetical : Option Text) :
    FailsFor (s.FaultIn form) (s.cite form pincite parenthetical) :=
  FailsFor.map _ ((FailsFor.liftM fun _ h => .source (s.clean_fault h)).bind fun pin =>
    (s.inForm_fails form pin).bind fun _ => .pure _)

end Source

end Footcite
