import Footcite.Proofs.Document.Notes
import Footcite.Proofs.Resolution.Idem

/-!
# When a case takes its short form

A ledger keeps the positions of the last few citations of a source only. Where positions never decrease, nothing is lost
by that: some position of all is within reach exactly when one of the last few is (`Record.exists_lastFew`), for the
last of all is among them. So a case that is not cited by *id.* takes the short form exactly when any citation of it
before, in whatever form and wherever it stands, is less than five notes away (`Resolution.short_case_iff_recent`).
-/

namespace Footcite

/-! ## The positions kept -/

namespace Record

/-- The last of some positions is among the last few. -/
theorem getLast?_mem_lastFew {ps : List Int} {p : Int} (h : ps.getLast? = some p) : p ∈ lastFew ps := by
  obtain ⟨before, rfl⟩ := List.getLast?_eq_some_iff.mp h
  unfold lastFew
  rw [List.drop_append_of_le_length (by simp only [List.length_append, List.length_singleton, shortCaseReach]; omega)]
  simp

/-- **The last few positions do for all of them**, if positions never decrease. -/
theorem exists_lastFew {ps : List Int} (hs : ps.Pairwise (· ≤ ·)) (q : Int) :
    (∃ p ∈ lastFew ps, q - p < shortCaseReach) ↔ ∃ p ∈ ps, q - p < shortCaseReach := by
  constructor
  · rintro ⟨p, hp, hq⟩
    exact ⟨p, List.mem_of_mem_drop hp, hq⟩
  · rintro ⟨p, hp, hq⟩
    cases hlast : ps.getLast? with
    | none => simp [List.getLast?_eq_none_iff.mp hlast] at hp
    | some last =>
      refine ⟨last, getLast?_mem_lastFew hlast, ?_⟩
      -- No position stands above the last one.
      have hle : p ≤ last := by
        obtain ⟨before, rfl⟩ := List.getLast?_eq_some_iff.mp hlast
        rcases List.mem_append.mp hp with hb | hb
        · exact (List.pairwise_append.mp hs).2.2 p hb last (List.mem_singleton.mpr rfl)
        · exact Int.le_of_eq (List.mem_singleton.mp hb)
      omega

end Record

/-- The positions of mentions never decrease if those of the notes do not. -/
theorem Note.allSites_sorted {notes : List Note} (h : notes.Pairwise fun n n' => n.position ≤ n'.position) :
    (Note.allSites notes).Pairwise fun x y => x.note.position ≤ y.note.position := by
  rw [Note.allSites_eq, List.pairwise_flatMap]
  constructor
  · intro n _
    rw [List.pairwise_iff_forall_sublist]
    intro x y hxy
    have hx : x ∈ n.sites := hxy.subset (by simp)
    have hy : y ∈ n.sites := hxy.subset (by simp)
    exact Int.le_of_eq (by rw [(Note.mem_sites hx).1, (Note.mem_sites hy).1])
  · refine h.imp ?_
    intro n n' hn x hx y hy
    rw [(Note.mem_sites hx).1, (Note.mem_sites hy).1]
    exact hn

namespace Ledger

variable {l l' : Ledger} {past : List Occurrence} {s : Source} {position number : Int} {pincite : Option Text}
  {opens : Bool} {form : Form}

/-- A case that is not *id.* takes the short form if the ledger has it among the recent ones, and else the long form. -/
theorem Choice.form_of_recent (h : l.Choice s position number pincite opens form l') (hc : s.isCase = true)
    (hid : ¬form.IsId) : form = if l.recentlyCited s.id position then .shortCase else .longCase := by
  cases h with
  | again => exact absurd ⟨_, _, rfl⟩ hid
  | firstCase _ hn => simp [recentlyCited, hn]
  | firstUnauthored _ _ hc' => simp [hc] at hc'
  | first _ _ hc' => simp [hc] at hc'
  | laterCase => rfl
  | later _ _ hc' => simp [hc] at hc'

/-- What a ledger has among the recent ones is told by the last few of the notes that cite a source. -/
theorem Follows.recentlyCited_iff (h : l.Follows past) {id : Text} {q : Int} : l.recentlyCited id q = true ↔
    ∃ p ∈ Record.lastFew ((citingNotes id (past.filterMap Occurrence.site?)).map Note.position),
      q - p < shortCaseReach := by
  have hr := h.records id
  unfold recentlyCited
  cases hn : citingNotes id (past.filterMap Occurrence.site?) with
  | nil =>
    rw [hn] at hr
    simp [Option.map_eq_none_iff.mp hr, Record.lastFew]
  | cons n rest =>
    rw [hn] at hr
    obtain ⟨r, hr, hu⟩ := Option.map_eq_some_iff.mp hr
    have hrecent : r.recent = Record.lastFew ((n :: rest).map Note.position) := congrArg Record.recent hu
    simp [hr, hrecent]

end Ledger

namespace Resolution

/-- **When a case takes its short form.** In notes whose positions never decrease, as those of a document do
(`Document.sorted_positions`), a case that is not cited by *id.* takes the short form exactly when it is mentioned
before, anywhere and in any form, in a note less than five positions back; otherwise it takes the long form. The ledger
that chooses knows of no more than five earlier mentions, and is right all the same. -/
theorem short_case_iff_recent {library : Library} (hl : library.Keyed) {notes : List Note}
    (hpos : notes.Pairwise fun n n' => n.position ≤ n'.position) {k k' : Desk} {r : Resolution}
    (hr : Gives (ofNotes library notes) k r k') {i : Nat} {x : Site} (hx : (Note.allSites notes)[i]? = some x)
    {s : Source} (hs : library.get? x.mention.source = some s) (hc : s.isCase = true) :
    ∃ e l, r.citations[i]? = some e ∧ e.source = s ∧ e.CitedFrom library l x ∧
      (l.recentlyCited s.id x.note.position = true ↔ ∃ y ∈ (Note.allSites notes).take i,
        y.mention.source = x.mention.source ∧ x.note.position - y.note.position < 5) ∧
      (¬e.form.IsId →
        (e.form = .shortCase ↔ ∃ y ∈ (Note.allSites notes).take i,
          y.mention.source = x.mention.source ∧ x.note.position - y.note.position < 5) ∧
        (e.form ≠ .shortCase → e.form = .longCase)) := by
  obtain ⟨e, l, past, he, hf, hp, hcf⟩ := citation_at hl hr hx
  have hes := hcf.source_eq hs
  have hid : s.id = x.mention.source := hl _ _ hs
  -- The positions of the earlier mentions never decrease, so the last few of them do.
  have hsorted : ((citingNotes s.id ((Note.allSites notes).take i)).map Note.position).Pairwise (· ≤ ·) := by
    rw [citingNotes, List.map_map, List.pairwise_map]
    exact ((Note.allSites_sorted hpos).sublist (List.take_sublist _ _)).sublist List.filter_sublist
  have hrecent : l.recentlyCited s.id x.note.position = true ↔ ∃ y ∈ (Note.allSites notes).take i,
      y.mention.source = x.mention.source ∧ x.note.position - y.note.position < 5 := by
    rw [hf.recentlyCited_iff, hp, Record.exists_lastFew hsorted, hid]
    constructor
    · rintro ⟨p, hmem, hq⟩
      obtain ⟨n, hn, rfl⟩ := List.mem_map.mp hmem
      obtain ⟨y, hy, hys, rfl⟩ := mem_citingNotes.mp hn
      exact ⟨y, hy, hys, hq⟩
    · rintro ⟨y, hy, hys, hq⟩
      exact ⟨_, List.mem_map_of_mem (mem_citingNotes.mpr ⟨y, hy, hys, rfl⟩), hq⟩
  refine ⟨e, l, he, hes, hcf, hrecent, fun hnid => ?_⟩
  obtain ⟨opens, form, l', hchoice, hform⟩ := hcf.chosen
  have hnid' : ¬form.IsId := by rwa [← Form.isId_unflagged, ← hform, Form.isId_unflagged]
  have hchosen := hchoice.form_of_recent (hes ▸ hc) hnid'
  rw [hes] at hchosen
  have hsame {g : Form} (hg : g.hereinafter? = none) : e.form = g ↔ form = g := by
    rw [← Form.unflagged_eq hg, hform, Form.unflagged_eq hg]
  rw [← hrecent, Ne, hsame rfl, hsame rfl, hchosen]
  cases l.recentlyCited s.id x.note.position <;> simp

/-- Notes that cite a case: five positions after the first the window has passed, four after the next it has not. -/
def spacedCase : List Note := [.citing 1 1 "c", .citing 2 2 "a", .citing 6 6 "c", .citing 7 7 "a", .citing 10 10 "c"]

/-- There the second citation of the case is in the long form, and the third in the short one. -/
theorem short_case_four_positions_on : ∃ r k', Gives (ofNotes Library.small spacedCase) Desk.bare r k' ∧
    (r.citations[2]?.map Draft.form) = some .longCase ∧ (r.citations[4]?.map Draft.form) = some .shortCase := by
  obtain ⟨r, k', hr, hid⟩ : ∃ r k', Gives (ofNotes Library.small spacedCase) Desk.bare r k' ∧
      (r.citations.all fun e => e.form.kind ≠ "id") = true := exists_gives_that (by decide +kernel)
  have hid {e : Draft} {i : Nat} (he : r.citations[i]? = some e) : ¬e.form.IsId := by
    rintro ⟨opens, repeated, hf⟩
    have := List.all_eq_true.mp hid e (List.mem_of_getElem? he)
    rw [hf] at this
    cases this
  have hpos : spacedCase.Pairwise fun n n' => n.position ≤ n'.position := by decide
  obtain ⟨s, hs, hc⟩ : ∃ s, Library.small.get? "c" = some s ∧ s.isCase = true := ⟨_, rfl, rfl⟩
  obtain ⟨e, _, he, _, _, _, hform⟩ := short_case_iff_recent Library.small_keyed hpos hr (i := 2) rfl hs hc
  obtain ⟨e', _, he', _, _, _, hform'⟩ := short_case_iff_recent Library.small_keyed hpos hr (i := 4) rfl hs hc
  refine ⟨r, k', hr, ?_, ?_⟩
  · rw [he, Option.map_some, (hform (hid he)).2]
    rw [Ne, (hform (hid he)).1]
    rintro ⟨y, hy, hs, hq⟩
    have htake : (Note.allSites spacedCase).take 2 =
        [⟨.citing 1 1 "c", { source := "c" }, none⟩, ⟨.citing 2 2 "a", { source := "a" }, none⟩] := rfl
    rw [htake, List.mem_pair] at hy
    rcases hy with rfl | rfl
    · exact absurd hq (by decide)
    · exact absurd hs (by decide)
  · rw [he', Option.map_some, (hform' (hid he')).1.mpr ⟨_, List.mem_of_getElem? (i := 2) rfl, rfl, by decide⟩]

end Resolution

end Footcite
