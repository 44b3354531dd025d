import Footcite.Proofs.Note.Anchors
import Footcite.Proofs.Resolution.Citation
import Footcite.Proofs.Resolution.Pieces

/-!
# Cross-references

A cross-reference comes to the displayed number of the one note that is anchored under its name
(`Resolution.crossrefs_of_document`), wherever it stands. A document that anchors two notes under one name is refused
for the earliest note that does so, before anything else in the notes is looked at.
-/

namespace Footcite

/-- The notes of a document have one anchor each at most. -/
theorem Document.singlyAnchored {offset : Int} {t : Text} {d : Document} (h : read offset t = .ok d) :
    ∀ n ∈ d.notes, n.SinglyAnchored := by
  intro n hn
  obtain ⟨position, number, body, hbody⟩ := exists_body h hn
  exact Note.singlyAnchored_of_read hbody

/-- Of notes that are apart no two are anchored under one name. -/
theorem Note.eq_of_apart {notes : List Note} (h : notes.Pairwise Note.Apart) {i j : Nat} {n n' : Note} {ref : Text}
    (hi : notes[i]? = some n) (hj : notes[j]? = some n') (hn : n.AnchoredAs ref) (hn' : n'.AnchoredAs ref) : i = j := by
  obtain ⟨hil, rfl⟩ := List.getElem?_eq_some_iff.mp hi
  obtain ⟨hjl, rfl⟩ := List.getElem?_eq_some_iff.mp hj
  have hapart := List.pairwise_iff_getElem.mp h
  rcases Nat.lt_trichotomy i j with hij | hij | hij
  · exact absurd hn' (hapart i j hil hjl hij ref hn)
  · exact hij
  · exact absurd hn (hapart j i hjl hil hij ref hn')

namespace Anchors

variable {notes : List Note}

/-- A name is entered with the number of the one note that it anchors. -/
theorem get?_entries_iff (h : ∀ n ∈ notes, n.SinglyAnchored) (hapart : notes.Pairwise Note.Apart) {ref : Text}
    {number : Int} :
    Table.get? (entries notes) ref = some number ↔ ∃ n ∈ notes, n.AnchoredAs ref ∧ n.number = number := by
  constructor
  · intro hget
    obtain ⟨before, n, after, rfl, hn, hnumber⟩ := get?_entries h hget
    exact ⟨n, by simp, hn, hnumber⟩
  · rintro ⟨n, hmem, hn, rfl⟩
    cases hget : Table.get? (entries notes) ref with
    | none => exact absurd hn (not_anchoredAs_of_get?_entries h hget n hmem)
    | some number =>
      obtain ⟨before, m, after, hnotes, hm, rfl⟩ := get?_entries h hget
      obtain ⟨i, hi⟩ := List.mem_iff_getElem?.mp hmem
      obtain ⟨j, hj⟩ := List.mem_iff_getElem?.mp (show m ∈ notes by simp [hnotes])
      obtain rfl := Note.eq_of_apart hapart hi hj hn hm
      rw [hi, Option.some.injEq] at hj
      rw [hj]

/-- Each name is entered once. -/
theorem nodup_keys_entries (h : ∀ n ∈ notes, n.SinglyAnchored) (hapart : notes.Pairwise Note.Apart) :
    (Table.keys (entries notes)).Nodup := by
  induction notes with
  | nil => exact .nil
  | cons n notes ih =>
    obtain ⟨hn, hnotes⟩ := List.forall_mem_cons.mp h
    obtain ⟨hfirst, hapart⟩ := List.pairwise_cons.mp hapart
    have hkeys : Table.keys (entries (n :: notes)) = names n.segments ++ Table.keys (entries notes) := by
      simp [Table.keys, entries, Function.comp_def]
    rw [hkeys]
    rcases hn with ⟨hnames, -⟩ | ⟨ref, hnames, hanchored⟩
    · rw [hnames]
      exact ih hnotes hapart
    · rw [hnames]
      refine List.nodup_cons.mpr ⟨fun hmem => ?_, ih hnotes hapart⟩
      obtain ⟨number, hget⟩ := Option.ne_none_iff_exists'.mp fun hnone =>
        Table.get?_eq_none_iff.mp hnone hmem
      obtain ⟨before, m, after, rfl, hm, -⟩ := get?_entries hnotes hget
      exact hfirst m (by simp) ref ((hanchored ref).mpr rfl) hm

end Anchors

namespace Resolution

/-- **Cross-references come to the one note that is anchored under their name.** If two notes of a document are anchored
under one name, its resolution fails for the earliest rebinding, and nothing is done at the desk. If it succeeds, each
name anchors one note at most, the table of cross-references holds the number of that note under each such name, and
in the text of every note its uses, at every depth, have become the numerals that the table gives, while its anchors
have become nothing. -/
theorem crossrefs_of_document {offset : Int} {t : Text} {d : Document} (hd : Document.read offset t = .ok d)
    (library : Library) (k : Desk) :
    ((∃ (i j : Nat) (n n' : Note) (ref : Text), i < j ∧ d.notes[i]? = some n ∧ d.notes[j]? = some n' ∧
        n.AnchoredAs ref ∧ n'.AnchoredAs ref) →
      ∃ ref first again, Note.FirstRebinding d.notes ref first again ∧
        outcome (ofNotes library d.notes) k = (.error (.anchoredTwice ref first.number again.number), k)) ∧
    ∀ r k', Gives (ofNotes library d.notes) k r k' →
      (∀ (i j : Nat) (n n' : Note) (ref : Text), d.notes[i]? = some n → d.notes[j]? = some n' →
        n.AnchoredAs ref → n'.AnchoredAs ref → i = j) ∧
      (Table.keys r.crossrefs).Nodup ∧
      (∀ ref number, r.crossrefs.get? ref = some number ↔ ∃ n ∈ d.notes, n.AnchoredAs ref ∧ n.number = number) ∧
      ∀ (i : Nat) (n : Note), d.notes[i]? = some n → ∃ pieces, r.texts[i]? = some (Piece.join pieces) ∧
        Segment.Become library r.crossrefs n n.segments pieces := by
  have hsingle := Document.singlyAnchored hd
  rcases Anchors.ofNotes_cases hsingle with ⟨hbound, hapart⟩ | ⟨ref, first, again, hfirst, hbound⟩
  · refine ⟨?_, fun r k' hr => ?_⟩
    · rintro ⟨i, j, n, n', ref, hij, hi, hj, hn, hn'⟩
      exact absurd (Note.eq_of_apart hapart hi hj hn hn') (Nat.ne_of_lt hij)
    · obtain ⟨hcrossrefs, hnotes, hbecome⟩ := settled_become hr
      rw [hbound, Except.ok.injEq] at hcrossrefs
      refine ⟨fun i j n n' ref => Note.eq_of_apart hapart, ?_, ?_, fun i n hi => ?_⟩
      · rw [← hcrossrefs]
        exact Anchors.nodup_keys_entries hsingle hapart
      · rw [← hcrossrefs]
        exact fun ref number => Anchors.get?_entries_iff hsingle hapart
      · rw [← hnotes, List.getElem?_map, Option.map_eq_some_iff] at hi
        obtain ⟨s, hs, rfl⟩ := hi
        exact ⟨s.pieces, by simp [texts, hs, SettledNote.text], hbecome s (List.mem_of_getElem? hs)⟩
  · have hfailed : outcome (ofNotes library d.notes) k =
        (.error (.anchoredTwice ref first.number again.number), k) := by
      rw [ofNotes, outcome_bind, outcome_get]
      simp only
      rw [outcome_bind, outcome_liftM, hbound]
    refine ⟨fun _ => ⟨ref, first, again, hfirst, hfailed⟩, fun r k' hr => ?_⟩
    rw [Gives, hfailed] at hr
    cases hr

/-- A name bound again in the third of three notes, of which the first cites a source that is not there; and a note
with a negative number that is referred to from before it, inside parentheticals, and from within. -/
theorem crossrefs_of_document_forward :
    (∃ d, Document.read (-2) "x^[[?k] [@lost].] y^[[?j] [?k].] z^[ [?k] [?gone].]" = .ok d ∧
      ∃ ref first again, Note.FirstRebinding d.notes ref first again ∧
        outcome (ofNotes [] d.notes) Desk.bare = (.error (.anchoredTwice ref first.number again.number), Desk.bare)) ∧
    ∃ d, Document.read (-3) "x^[See [@c] (as in note [?k], and [@b] (note [?k])).] y^[[?k] Here, [?k].]" = .ok d ∧
      ∃ r k', Gives (ofNotes Library.small d.notes) Desk.bare r k' ∧
        r.texts = [
          "See C, 1 R. 2 (as in note -1, and **ash**, **B** (note -1)).", "Here, -1."].map String.toList ∧
        ∃ n ∈ d.notes, n.AnchoredAs "k" ∧ n.number = -1 := by
  constructor
  · obtain ⟨d, hd, hok⟩ := Except.exists_ok_that
      (x := Document.read (-2) "x^[[?k] [@lost].] y^[[?j] [?k].] z^[ [?k] [?gone].]")
      (p := fun d => d.notes[0]?.any (·.AnchoredAs "k") && d.notes[2]?.any (·.AnchoredAs "k")) (by decide +kernel)
    simp only [Bool.and_eq_true, Option.any_eq_true, decide_eq_true_eq] at hok
    obtain ⟨⟨n, hn, hk⟩, n', hn', hk'⟩ := hok
    exact ⟨d, hd, (crossrefs_of_document hd [] Desk.bare).1 ⟨0, 2, n, n', "k", by decide, hn, hn', hk, hk'⟩⟩
  · obtain ⟨d, hd, hok⟩ := Except.exists_ok_that
      (x := Document.read (-3) "x^[See [@c] (as in note [?k], and [@b] (note [?k])).] y^[[?k] Here, [?k].]")
      (p := fun d => (outcome (ofNotes Library.small d.notes) Desk.bare).1.toOption.any fun r =>
        r.crossrefs.get? "k" = some (-1) && r.texts = [
          "See C, 1 R. 2 (as in note -1, and **ash**, **B** (note -1)).", "Here, -1."].map String.toList) (by decide +kernel)
    obtain ⟨r, k', hr, hok⟩ := exists_gives_that hok
    simp only [Bool.and_eq_true, decide_eq_true_eq] at hok
    have hnumber := ((crossrefs_of_document hd Library.small Desk.bare).2 r k' hr).2.2.1 "k" (-1)
    exact ⟨d, hd, r, k', hr, hok.2, hnumber.mp hok.1⟩

end Resolution

end Footcite
