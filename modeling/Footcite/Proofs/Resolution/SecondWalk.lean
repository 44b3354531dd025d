import Footcite.Proofs.Resolution.FirstWalk
import Footcite.Proofs.Resolution.Settling

/-!
# What fails when notes are resolved

Where notes are resolved all segments pass (`Resolution.passed_of_ofNotes`). What fails in a note while notes are
resolved is the earliest rebinding of an anchor, or else the first segment at fault (`Resolution.ofNotes_fault`), for
the second walk does not fail.
-/

namespace Footcite

variable {library : Library}

/-! ## The notes -/

/-- A name that is not entered is one that anchors no note. -/
theorem Anchors.get?_entries_eq_none_iff {notes : List Note} (h : ∀ n ∈ notes, n.SinglyAnchored) {ref : Text} :
    Table.get? (entries notes) ref = none ↔ ∀ n ∈ notes, ¬n.AnchoredAs ref := by
  refine ⟨not_anchoredAs_of_get?_entries h, fun hnone => ?_⟩
  by_contra hsome
  obtain ⟨number, hsome⟩ := Option.ne_none_iff_exists'.mp hsome
  obtain ⟨before, n, after, rfl, hanchored, -⟩ := get?_entries h hsome
  exact hnone n (by simp) hanchored

namespace Resolution

variable {notes : List Note} {k : Desk}

/-- **Notes that are resolved** have no two anchors under one name, and all their segments pass. -/
theorem passed_of_ofNotes (hs : ∀ n ∈ notes, n.SinglyAnchored)
    (hfound : ∀ n ∈ notes, ∀ m ∈ n.mentions, Pincite.Found m.pincite) {k' : Desk} {r : Resolution}
    (hr : Gives (ofNotes library notes) k r k') :
    notes.Pairwise Note.Apart ∧ ∃ l, Passed library notes {} (notes.flatMap Note.parts) l := by
  obtain ⟨pss, l, k₁, qss, k₂, ha, hd, -, -, -⟩ := ofNotes_stages hr
  rcases Anchors.ofNotes_cases hs with ⟨hbound, hapart⟩ | ⟨ref, first, again, -, hbound⟩
  · rw [← Except.ok.inj (hbound.symm.trans ha)] at hd
    have hanchors (ref : Text) : Table.get? (Anchors.entries notes) ref = none ↔ ∀ n ∈ notes, ¬n.AnchoredAs ref :=
      Anchors.get?_entries_eq_none_iff hs
    exact ⟨hapart, l, (Note.draftAll_reading hanchors notes {} hfound).passed k pss l k₁ hd⟩
  · rw [hbound] at ha
    cases ha

/-- **What is at fault when notes are not resolved**: the earliest rebinding of an anchor, and if there is none, the
first segment at fault. -/
theorem ofNotes_fault (hl : library.Keyed) (hs : ∀ n ∈ notes, n.SinglyAnchored)
    (hfound : ∀ n ∈ notes, ∀ m ∈ n.mentions, Pincite.Found m.pincite) {e : Failure}
    (h : (outcome (ofNotes library notes) k).1 = .error e) (he : e.ofNote = true) :
    (∃ ref first again, Note.FirstRebinding notes ref first again ∧
      e = .anchoredTwice ref first.number again.number) ∨
    notes.Pairwise Note.Apart ∧ ∃ n, StoppedAt library notes {} (notes.flatMap Note.parts) n e := by
  rcases Anchors.ofNotes_cases hs with ⟨hbound, hapart⟩ | ⟨ref, first, again, hfirst, hbound⟩
  · rcases ofNotes_error hl h with h | ⟨crossrefs, hcrossrefs, h⟩
    · cases hbound.symm.trans h
    · obtain rfl : Anchors.entries notes = crossrefs := Except.ok.inj (hbound.symm.trans hcrossrefs)
      have hanchors (ref : Text) : Table.get? (Anchors.entries notes) ref = none ↔ ∀ n ∈ notes, ¬n.AnchoredAs ref :=
        Anchors.get?_entries_eq_none_iff hs
      exact .inr ⟨hapart, (Note.draftAll_reading hanchors notes {} hfound).stopped k e h he⟩
  · rcases ofNotes_error hl h with h | ⟨crossrefs, hcrossrefs, -⟩
    · exact .inl ⟨ref, first, again, hfirst, (Except.error.inj (hbound.symm.trans h)).symm⟩
    · cases hbound.symm.trans hcrossrefs

end Resolution

end Footcite
