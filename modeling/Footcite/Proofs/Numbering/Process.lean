import Footcite.Proofs.Numbering.Resolution
import Footcite.Proofs.Resolution.Crossrefs

/-!
# Documents worked through under shifted numbers

The offset under which the notes of a document are displayed moves their numbers and does nothing else
(`process_shifted`). A number that has grown too long cannot be written, and the work ends there
(`process_far_offset`).
-/

namespace Footcite

open Editing

variable {δ : Int} {user bundled : Table Text} {library : Library}

/-- **What comes of a document, and of the document under shifted numbers.** -/
structure Processed.ShiftedBy (δ : Int) (p p' : Processed) : Prop where
  document : p'.document = p.document.shifted δ
  citations : List.Forall₂ (Draft.ShiftedBy δ) p.resolution.citations p'.resolution.citations
  resolution : p.resolution.ShiftedBy δ p'.resolution

/-- The citations among pieces. -/
theorem Piece.ShiftedBy.drafts {ps qs : List Piece} (h : List.Forall₂ (Piece.ShiftedBy δ) ps qs) :
    List.Forall₂ (Draft.ShiftedBy δ) (ps.filterMap Piece.draft?) (qs.filterMap Piece.draft?) := by
  induction h with
  | nil => exact .nil
  | cons hp _ ih =>
    cases hp with
    | cite hd => exact .cons hd ih
    | _ => exact ih

/-- The citations of a resolution and of its shifted one. -/
theorem Resolution.ShiftedBy.citations {r r' : Resolution} (h : r.ShiftedBy δ r') :
    List.Forall₂ (Draft.ShiftedBy δ) r.citations r'.citations :=
  List.rel_flatMap h.settled fun _ _ hn => Piece.ShiftedBy.drafts hn.pieces

/-- A document is worked through alike under another offset. -/
theorem process_alike (offset : Int) (smallCaps : Bool) (t : Text) :
    Alike user bundled δ (Processed.ShiftedBy δ) (process library offset smallCaps t)
      (process library (offset + δ) smallCaps t) := by
  unfold process
  refine (Alike.liftM (Document.read_alike offset t)).bind ?_
  rintro document _ rfl
  refine (Alike.note _ _).bind fun _ _ _ => ?_
  rw [Document.notes_shifted]
  refine (Resolution.ofNotes_alike library document.notes).bind ?_
  intro r r' hr
  exact .pure ⟨rfl, hr.citations, hr⟩

/-- **The offset moves the numbers and does nothing else.** Under two offsets a document is worked through to the same
end at desks with the same journals, unless a number that has to be written is too long: either both runs end well,
with the same citations but for the numbers in them, or both fail for the same reason, the numbers of notes in it
moved. -/
theorem process_shifted {a b : Int} {smallCaps : Bool} {t : Text} {k k' : Desk}
    (hk : k.journals.Serves user bundled) (hk' : k'.journals.Serves user bundled)
    (ha : (outcome (process library a smallCaps t) k).1 ≠ .error .longNumeral)
    (hb : (outcome (process library b smallCaps t) k').1 ≠ .error .longNumeral) :
    (∃ p p', (outcome (process library a smallCaps t) k).1 = .ok p ∧
        (outcome (process library b smallCaps t) k').1 = .ok p' ∧ p.ShiftedBy (b - a) p') ∨
      ∃ f, (outcome (process library a smallCaps t) k).1 = .error f ∧
        (outcome (process library b smallCaps t) k').1 = .error (f.shifted (b - a)) := by
  have halike : Alike user bundled (b - a) (Processed.ShiftedBy (b - a)) (process library a smallCaps t)
      (process library (a + (b - a)) smallCaps t) := process_alike a smallCaps t
  rw [show a + (b - a) = b by omega] at halike
  exact (halike.ends hk hk').cases_of_ne ha hb

/-- Notes with citations in four forms and a reference. -/
def Text.threeNotes : Text := "One^[[?x] [@a] 3.] two^[[@b]; cf. note [?x].]^[As in [@a], [@c] ([@c] 4).]"

/-- A document before which three notes are left out: the numbers become negative, in the notes and in the citations
and references that name them. -/
theorem process_shifted_negative : ∃ p p',
    (outcome (process Library.small 0 false Text.threeNotes) Desk.bare).1 = .ok p ∧
    (outcome (process Library.small (-3) false Text.threeNotes) Desk.bare).1 = .ok p' ∧ p.ShiftedBy (-3) p' ∧
    p.resolution.texts = ["**Ash**, **A** 3 [hereinafter **Ash**, **A**].",
      "**ash**, **B** [hereinafter **ash**, **B**]; cf. note 1.",
      "As in **Ash**, **A**, *supra* note 1, C, 1 R. 2 (*id.* at 4)."].map String.toList ∧
    p'.resolution.texts = ["**Ash**, **A** 3 [hereinafter **Ash**, **A**].",
      "**ash**, **B** [hereinafter **ash**, **B**]; cf. note -2.",
      "As in **Ash**, **A**, *supra* note -2, C, 1 R. 2 (*id.* at 4)."].map String.toList := by
  have hk : Desk.bare.journals.Serves _ _ := Journals.ofTables_serves [] []
  obtain ⟨p, k, hp, htexts⟩ := exists_gives_that (x := process Library.small 0 false Text.threeNotes)
    (s := Desk.bare) (p := fun p => p.resolution.texts = ["**Ash**, **A** 3 [hereinafter **Ash**, **A**].",
      "**ash**, **B** [hereinafter **ash**, **B**]; cf. note 1.",
      "As in **Ash**, **A**, *supra* note 1, C, 1 R. 2 (*id.* at 4)."].map String.toList) (by decide +kernel)
  obtain ⟨p', k', hp', htexts'⟩ := exists_gives_that (x := process Library.small (-3) false Text.threeNotes)
    (s := Desk.bare) (p := fun p => p.resolution.texts = ["**Ash**, **A** 3 [hereinafter **Ash**, **A**].",
      "**ash**, **B** [hereinafter **ash**, **B**]; cf. note -2.",
      "As in **Ash**, **A**, *supra* note -2, C, 1 R. 2 (*id.* at 4)."].map String.toList) (by decide +kernel)
  have hp := congrArg Prod.fst hp
  have hp' := congrArg Prod.fst hp'
  rcases process_shifted hk hk (by rw [hp]; simp) (by rw [hp']; simp) with ⟨q, q', hq, hq', hshift⟩ | ⟨f, hf, -⟩
  · cases hp.symm.trans hq
    cases hp'.symm.trans hq'
    exact ⟨p, p', hp, hp', hshift, of_decide_eq_true htexts, of_decide_eq_true htexts'⟩
  · cases hp.symm.trans hf

/-! ## Numbers that are too long -/

/-- A note that is anchored, and one that refers to it, displayed from the number after an offset on. -/
def Note.anchoredAndReferred (offset : Int) : List Note :=
  [⟨1, 1 + offset, [.anchor "x", .text " t."]⟩, ⟨2, 2 + offset, [.text "See ", .use "x", .text "."]⟩]

/-- A reference to a note with a number that is too long ends the work. -/
theorem Resolution.ofNotes_anchoredAndReferred {offset : Int} (h : Numeral.fits (1 + offset) = false) (k : Desk) :
    (outcome (ofNotes [] (Note.anchoredAndReferred offset)) k).1 = .error .longNumeral := by
  have hanchors : Anchors.ofNotes (Note.anchoredAndReferred offset) = .ok [("x".toList, 1 + offset)] := by rfl
  have hwrite : Numeral.write (1 + offset) = .error .longNumeral := by simp [Numeral.write, h]
  have hdraft : outcome (Note.draftAll [] [("x".toList, 1 + offset)] {} (Note.anchoredAndReferred offset)) k =
      (.error .longNumeral, k) := by
    simp [Note.anchoredAndReferred, Note.draftAll, Note.steps, Segment.allSteps, Segment.steps, Step.takeAll,
      Step.take, outcome_bind, outcome_liftM, Anchors.lookup, Table.get?, hwrite]
    rfl
  unfold ofNotes
  rw [outcome_bind, outcome_get]
  simp only [hanchors]
  rw [outcome_bind, outcome_liftM]
  simp only
  rw [outcome_bind, hdraft]

theorem Numeral.fits_ofNat_eq_false {n : Nat} (h : Nat.pow 10 maxDigits ≤ n) : fits (Int.ofNat n) = false := by
  rw [Bool.eq_false_iff, Ne, fits_iff]
  exact Nat.not_lt.mpr h

/-- An offset so far away that the first number after it is too long to be written. -/
def farOffset : Int := Int.ofNat (Nat.pow 10 Numeral.maxDigits) - 1

theorem fits_farOffset : Numeral.fits (1 + farOffset) = false := by
  have hnumber : 1 + farOffset = Int.ofNat (Nat.pow 10 Numeral.maxDigits) := by
    rw [farOffset, Int.add_comm, Int.sub_add_cancel]
  rw [hnumber]
  exact Numeral.fits_ofNat_eq_false (Nat.le_refl _)

/-- **Under an offset far enough away the work ends at a number that is too long**, where it ends well without one. -/
theorem process_far_offset :
    (∃ p, (outcome (process [] 0 false "a^[[?x] t.] b^[See [?x].]") Desk.bare).1 = .ok p) ∧
      (outcome (process [] farOffset false "a^[[?x] t.] b^[See [?x].]") Desk.bare).1 = .error .longNumeral := by
  constructor
  · obtain ⟨p, k', hp⟩ := exists_gives (x := process [] 0 false "a^[[?x] t.] b^[See [?x].]") (s := Desk.bare)
      (by decide +kernel)
    exact ⟨p, congrArg Prod.fst hp⟩
  · obtain ⟨d, hd, hnotes⟩ := Except.exists_ok_that (x := Document.read farOffset "a^[[?x] t.] b^[See [?x].]")
      (p := fun d => d.notes = Note.anchoredAndReferred farOffset) (by decide +kernel)
    unfold process
    rw [outcome_bind, hd, outcome_liftM]
    simp only
    rw [outcome_bind, of_decide_eq_true hnotes]
    exact outcome_bind_of_error (Resolution.ofNotes_anchoredAndReferred fits_farOffset _)

end Footcite
