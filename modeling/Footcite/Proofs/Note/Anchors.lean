import Footcite.Proofs.Document.Notes
import Footcite.Proofs.Note.Parts
import Footcite.Proofs.Table

/-!
# Anchored notes

What comes of binding the anchors of notes that were read (`Anchors.ofNotes_cases`): either no two notes are anchored
under one name, and the names are bound to the numbers of their notes in order, or the earliest note that is anchored
under a name of an earlier one (`Note.FirstRebinding`) ends the work. Anchors are bound by a look at the segments of a
note alone, and this suffices, since none stands in a parenthetical (`Note.SinglyAnchored`).
-/

namespace Footcite

namespace Note

/-- The note is anchored under the name, at whatever depth the anchor may stand. -/
def AnchoredAs (n : Note) (ref : Text) : Prop := .anchor ref ∈ Segment.allParts n.segments

instance (n : Note) (ref : Text) : Decidable (n.AnchoredAs ref) :=
  inferInstanceAs (Decidable (.anchor ref ∈ Segment.allParts n.segments))

/-- No name anchors both notes. -/
def Apart (n n' : Note) : Prop := ∀ ref, n.AnchoredAs ref → ¬n'.AnchoredAs ref

/-- A note with no anchor, or with one at the top. -/
def SinglyAnchored (n : Note) : Prop :=
  (Anchors.names n.segments = [] ∧ ∀ ref, ¬n.AnchoredAs ref) ∨
    ∃ ref, Anchors.names n.segments = [ref] ∧ ∀ ref', n.AnchoredAs ref' ↔ ref' = ref

/-- **The earliest rebinding**: of the notes before `again` no two are anchored under one name, and it is anchored under
that of `first`. -/
def FirstRebinding (notes : List Note) (ref : Text) (first again : Note) : Prop :=
  ∃ before between after, notes = before ++ first :: (between ++ again :: after) ∧
    (before ++ first :: between).Pairwise Apart ∧ first.AnchoredAs ref ∧ again.AnchoredAs ref

/-- The names at the top of segments without anchors. -/
theorem names_eq_nil {segments : List Segment} (h : ∀ ref, .anchor ref ∉ Segment.allParts segments) :
    Anchors.names segments = [] := by
  refine List.filterMap_eq_nil_iff.mpr fun s hs => ?_
  cases s with
  | anchor ref => exact absurd (Segment.mem_allParts_of_mem hs) (h ref)
  | text _ => rfl
  | mention _ _ => rfl
  | breaker _ => rfl
  | use _ => rfl

/-- **A note that is read has one anchor at most, and that at the top.** -/
theorem singlyAnchored_of_read {position number : Int} {body : Text} {n : Note}
    (h : read position number body = .ok n) : n.SinglyAnchored := by
  by_cases ha : ∃ ref, n.AnchoredAs ref
  · obtain ⟨ref, href⟩ := ha
    obtain ⟨rest, hs, hrest⟩ := anchor_of_read h href
    refine .inr ⟨ref, ?_, fun ref' => ?_⟩
    · rw [hs]
      exact congrArg _ (names_eq_nil hrest)
    · simp [AnchoredAs, hs, Segment.parts, hrest]
  · have hnone (ref : Text) : ¬n.AnchoredAs ref := fun href => ha ⟨ref, href⟩
    exact .inl ⟨names_eq_nil hnone, hnone⟩

end Note

namespace Anchors

variable {notes past : List Note} {n : Note} {ref : Text} {number : Int}

theorem entries_append (notes notes' : List Note) : entries (notes ++ notes') = entries notes ++ entries notes' :=
  List.flatMap_append

/-- The entries of a note alone. -/
theorem entries_singleton (n : Note) : entries [n] = (names n.segments).map fun ref => (ref, n.number) := by
  simp [entries]

/-- A name that a note is anchored under is entered with its number. -/
theorem get?_entries (h : ∀ n ∈ notes, n.SinglyAnchored) (hget : Table.get? (entries notes) ref = some number) :
    ∃ before n after, notes = before ++ n :: after ∧ n.AnchoredAs ref ∧ n.number = number := by
  induction notes with
  | nil => cases hget
  | cons n notes ih =>
    obtain ⟨hn, hnotes⟩ := List.forall_mem_cons.mp h
    have hskip (hget : Table.get? (entries notes) ref = some number) :
        ∃ before m after, n :: notes = before ++ m :: after ∧ m.AnchoredAs ref ∧ m.number = number := by
      obtain ⟨before, m, after, rfl, hm⟩ := ih hnotes hget
      exact ⟨n :: before, m, after, rfl, hm⟩
    rw [← List.singleton_append, entries_append, entries_singleton] at hget
    rcases hn with ⟨hnames, -⟩ | ⟨ref', hnames, hanchored⟩
    · rw [hnames] at hget
      exact hskip hget
    · rw [hnames] at hget
      simp only [List.map_cons, List.map_nil, List.cons_append, List.nil_append, Table.get?] at hget
      split at hget
      · next href =>
        cases hget
        exact ⟨[], n, notes, rfl, (hanchored ref).mpr href.symm, rfl⟩
      · exact hskip hget

/-- A name that is not entered anchors no note. -/
theorem not_anchoredAs_of_get?_entries (h : ∀ n ∈ notes, n.SinglyAnchored)
    (hget : Table.get? (entries notes) ref = none) : ∀ n ∈ notes, ¬n.AnchoredAs ref := by
  induction notes with
  | nil => simp
  | cons n notes ih =>
    obtain ⟨hn, hnotes⟩ := List.forall_mem_cons.mp h
    rw [← List.singleton_append, entries_append, entries_singleton] at hget
    rcases hn with ⟨hnames, hnone⟩ | ⟨ref', hnames, hanchored⟩
    · rw [hnames] at hget
      exact List.forall_mem_cons.mpr ⟨hnone ref, ih hnotes hget⟩
    · rw [hnames] at hget
      simp only [List.map_cons, List.map_nil, List.cons_append, List.nil_append, Table.get?] at hget
      split at hget
      · cases hget
      · next href => exact List.forall_mem_cons.mpr ⟨fun hn => href ((hanchored ref).mp hn).symm, ih hnotes hget⟩

/-- **What comes of binding anchors**, when those of earlier notes are bound already. -/
theorem bindAll_cases (hpast : past.Pairwise Note.Apart) (hp : ∀ n ∈ past, n.SinglyAnchored)
    (hn : ∀ n ∈ notes, n.SinglyAnchored) :
    ((entries notes).foldlM (fun a (ref, number) => Anchors.bind a ref number) (entries past) =
        .ok (entries (past ++ notes)) ∧ (past ++ notes).Pairwise Note.Apart) ∨
      ∃ ref first again, Note.FirstRebinding (past ++ notes) ref first again ∧
        (entries notes).foldlM (fun a (ref, number) => Anchors.bind a ref number) (entries past) =
          .error (.anchoredTwice ref first.number again.number) := by
  induction notes generalizing past with
  | nil => exact .inl ⟨by rw [List.append_nil]; rfl, by rwa [List.append_nil]⟩
  | cons n notes ih =>
    obtain ⟨hsingle, hn⟩ := List.forall_mem_cons.mp hn
    have hp' : ∀ m ∈ past ++ [n], m.SinglyAnchored :=
      List.forall_mem_append.mpr ⟨hp, List.forall_mem_singleton.mpr hsingle⟩
    have hwhole : past ++ n :: notes = past ++ [n] ++ notes := by simp
    have hentries : entries (n :: notes) = (names n.segments).map (fun ref => (ref, n.number)) ++ entries notes := rfl
    have hnext : entries (past ++ [n]) = entries past ++ (names n.segments).map fun ref => (ref, n.number) := by
      rw [entries_append, entries_singleton]
    rw [hwhole, hentries]
    rcases hsingle with ⟨hnames, hnone⟩ | ⟨ref, hnames, hanchored⟩
    · -- The note binds nothing.
      have hapart : (past ++ [n]).Pairwise Note.Apart :=
        List.pairwise_append.mpr ⟨hpast, List.pairwise_singleton _ n, fun m _ n' hn' ref _ hm => by
          rw [List.mem_singleton.mp hn'] at hm
          exact hnone ref hm⟩
      rw [hnames, List.map_nil, List.append_nil] at hnext
      rw [hnames, List.map_nil, List.nil_append, ← hnext]
      exact ih hapart hp' hn
    · rw [hnames, List.map_singleton] at hnext
      rw [hnames, List.map_singleton, List.singleton_append, List.foldlM_cons]
      cases hget : Table.get? (entries past) ref with
      | none =>
        have hbind : Anchors.bind (entries past) ref n.number = .ok (entries (past ++ [n])) := by
          simp [Anchors.bind, hget, Table.set_of_not_mem (Table.get?_eq_none_iff.mp hget), hnext]
        have hapart : (past ++ [n]).Pairwise Note.Apart :=
          List.pairwise_append.mpr ⟨hpast, List.pairwise_singleton _ n, fun m hm n' hn' ref' hmr hnr => by
            rw [List.mem_singleton.mp hn', hanchored] at hnr
            exact not_anchoredAs_of_get?_entries hp hget m hm (hnr ▸ hmr)⟩
        simp only [hbind]
        exact ih hapart hp' hn
      | some number =>
        obtain ⟨before, first, between, rfl, hfirst, rfl⟩ := get?_entries hp hget
        refine .inr ⟨ref, first, n, ⟨before, between, notes, by simp, hpast, hfirst, (hanchored ref).mpr rfl⟩, ?_⟩
        simp [Anchors.bind, hget]
        rfl

/-- **Binding the anchors of a document** ends in one of two ways. -/
theorem ofNotes_cases (hn : ∀ n ∈ notes, n.SinglyAnchored) :
    (ofNotes notes = .ok (entries notes) ∧ notes.Pairwise Note.Apart) ∨
      ∃ ref first again, Note.FirstRebinding notes ref first again ∧
        ofNotes notes = .error (.anchoredTwice ref first.number again.number) := by
  have hnone : ([] : List Note).Pairwise Note.Apart := .nil
  exact bindAll_cases hnone (by simp) hn

end Anchors

end Footcite
