import Footcite.Proofs.Ledger.History

/-!
# The citation of each mention

Where a resolution succeeds, each mention has one citation, in the order of reading (`Resolution.length_citations`), and
its form is, flag aside, the one chosen from a ledger that follows what was read before it (`Resolution.citation_after`,
`Resolution.citation_at`).
-/

namespace Footcite

/-! ## Forms apart from their flags -/

namespace Form

/-- A form without its flag. -/
def unflagged (f : Form) : Form := f.withHereinafter false

variable {f : Form}

theorem unflagged_withHereinafter (flag : Bool) : (f.withHereinafter flag).unflagged = f.unflagged := by
  cases f <;> rfl

theorem hereinafter?_unflagged : f.unflagged.hereinafter? = none ↔ f.hereinafter? = none := by
  cases f <;> simp [unflagged, withHereinafter, hereinafter?]

/-- A form comes to one that has no flag only if it is that one. -/
theorem unflagged_eq {g : Form} (hg : g.hereinafter? = none) : f.unflagged = g ↔ f = g := by
  cases f <;> cases g <;> simp_all [unflagged, withHereinafter, hereinafter?]

theorem unflagged_eq_full : f.unflagged = .full false ↔ ∃ flag, f = .full flag := by
  cases f <;> simp [unflagged, withHereinafter]

theorem unflagged_eq_short {note : Int} : f.unflagged = .short note false ↔ ∃ flag, f = .short note flag := by
  cases f <;> simp [unflagged, withHereinafter]

end Form

/-! ## Settled citations -/

/-- Settling changes a form by its flag at most. -/
theorem Draft.Settles.unflagged_form {l : Ledger} {d e : Draft} (h : d.Settles l e) :
    e.form.unflagged = d.form.unflagged := by
  cases hf : d.form.hereinafter? with
  | none => rw [h.unflagged hf]
  | some flag =>
    obtain ⟨r, _, he⟩ := h.flagged flag hf
    rw [he, Form.unflagged_withHereinafter]

/-- **A citation of a mention**, its form chosen from the ledger but for the flag. -/
structure Draft.CitedFrom (library : Library) (l : Ledger) (x : Site) (e : Draft) : Prop where
  source : library.get? x.mention.source = some e.source
  pincite : Pincite.clean e.source.id x.mention.pincite = .ok e.pincite
  position : e.position = x.note.position
  number : e.number = x.note.number
  parenthetical : e.parenthetical = x.parenthetical
  chosen : ∃ opens form l', l.Choice e.source x.note.position x.note.number e.pincite opens form l' ∧
    e.form.unflagged = form.unflagged

/-- The source of a citation is the one that the library has for the mention. -/
theorem Draft.CitedFrom.source_eq {library : Library} {l : Ledger} {x : Site} {e : Draft} (h : e.CitedFrom library l x)
    {s : Source} (hs : library.get? x.mention.source = some s) : e.source = s := by
  have he := h.source
  rw [hs, Option.some.injEq] at he
  exact he.symm

/-- What is cited at first and settled in the end is a citation of the mention. -/
theorem Cites.settles {library : Library} {l l' last : Ledger} {k k' : Desk} {x : Site} {d e : Draft}
    (hc : Cites library l k x d l' k') (hs : d.Settles last e) : e.CitedFrom library l x := by
  obtain ⟨opens, l₁, hchoose, _⟩ := hc.chosen
  have hf := hs.unflagged_form
  rw [hs.same] at hf ⊢
  exact ⟨hc.source, hc.pincite, hc.position, hc.number, hc.parenthetical,
    opens, d.form, l₁, Ledger.choice_of_choose hchoose, hf⟩

namespace Resolution

variable {library : Library} {notes : List Note} {k k' : Desk} {r : Resolution}

/-- The citations of a resolution are settled drafts of a walk through its notes. -/
theorem ofNotes_settles (hr : Gives (ofNotes library notes) k r k') :
    ∃ ds l k₁, Walk library {} k (Note.allOccurrences notes) ds l k₁ ∧
      List.Forall₂ (Draft.Settles l) ds r.citations := by
  obtain ⟨ds, l, k₁, k₂, hw, hs, -⟩ := ofNotes_gives hr
  exact ⟨ds, l, k₁, hw, (Gives.mapM (P := fun _ => True) (fun _ h => ⟨(Draft.settle_gives h).1, trivial⟩) trivial hs).1⟩

/-- Each mention has one citation. -/
theorem length_citations (hr : Gives (ofNotes library notes) k r k') :
    r.citations.length = (Note.allSites notes).length := by
  obtain ⟨ds, l, k₁, hw, hs⟩ := ofNotes_settles hr
  rw [← hs.length_eq, hw.length_drafts]
  rfl

/-- **The citation of a mention** stands behind those of the mentions before it, and its form is chosen from a ledger
that follows what comes before it. -/
theorem citation_after (hl : library.Keyed) (hr : Gives (ofNotes library notes) k r k') {before after : List Occurrence}
    {x : Site} (ho : Note.allOccurrences notes = before ++ .mention x :: after) :
    ∃ e l, r.citations[(before.filterMap Occurrence.site?).length]? = some e ∧ l.Follows before ∧
      e.CitedFrom library l x := by
  obtain ⟨ds, last, k₁, hw, hs⟩ := ofNotes_settles hr
  rw [ho] at hw
  obtain ⟨d, ds₁, l₁, k₁, l₂, k₂, hd, hw₁, hc⟩ := hw.at_mention
  obtain ⟨hi, rfl⟩ := List.getElem?_eq_some_iff.mp hd
  have hi' : (before.filterMap Occurrence.site?).length < r.citations.length := hs.length_eq ▸ hi
  refine ⟨r.citations[(before.filterMap Occurrence.site?).length], l₁, List.getElem?_eq_getElem hi', ?_, ?_⟩
  · simpa using hw₁.follows hl .empty
  · exact hc.settles (hs.get hi hi')

/-- A mention is preceded by the mentions before it and by breakers. -/
theorem occurrences_of_site {i : Nat} {x : Site} (hx : (Note.allSites notes)[i]? = some x) :
    ∃ before after, Note.allOccurrences notes = before ++ .mention x :: after ∧
      before.filterMap Occurrence.site? = (Note.allSites notes).take i ∧
      (before.filterMap Occurrence.site?).length = i := by
  obtain ⟨hi, hx⟩ := List.getElem?_eq_some_iff.mp hx
  have hs : (Note.allOccurrences notes).filterMap Occurrence.site? =
      (Note.allSites notes).take i ++ x :: (Note.allSites notes).drop (i + 1) := by
    rw [← hx, List.getElem_cons_drop, List.take_append_drop]
    rfl
  obtain ⟨os, os', ho, h₁, h₂⟩ := List.filterMap_eq_append_iff.mp hs
  obtain ⟨gap, o, after, rfl, hgap, ho', _⟩ := List.filterMap_eq_cons_iff.mp h₂
  have hgap : gap.filterMap Occurrence.site? = [] := List.filterMap_eq_nil_iff.mpr hgap
  have hb : (os ++ gap).filterMap Occurrence.site? = (Note.allSites notes).take i := by
    rw [List.filterMap_append, h₁, hgap, List.append_nil]
  refine ⟨os ++ gap, after, ?_, hb, ?_⟩
  · cases o with
    | mention y =>
      cases ho'
      rw [ho, List.append_assoc]
    | breaker n => cases ho'
  · rw [hb, List.length_take]
    omega

/-- The citation of a mention by its place among the mentions. -/
theorem citation_at (hl : library.Keyed) (hr : Gives (ofNotes library notes) k r k') {i : Nat} {x : Site}
    (hx : (Note.allSites notes)[i]? = some x) : ∃ e l past, r.citations[i]? = some e ∧ l.Follows past ∧
      past.filterMap Occurrence.site? = (Note.allSites notes).take i ∧ e.CitedFrom library l x := by
  obtain ⟨before, after, ho, hb, hlen⟩ := occurrences_of_site hx
  obtain ⟨e, l, he, hf, hc⟩ := citation_after hl hr ho
  exact ⟨e, l, before, hlen ▸ he, hf, hb, hc⟩

/-- A citation is that of a mention. -/
theorem citation_of_mem (hl : library.Keyed) (hr : Gives (ofNotes library notes) k r k') {e : Draft}
    (he : e ∈ r.citations) : ∃ i x l past, (Note.allSites notes)[i]? = some x ∧ l.Follows past ∧
      past.filterMap Occurrence.site? = (Note.allSites notes).take i ∧ e.CitedFrom library l x := by
  obtain ⟨i, hi⟩ := List.mem_iff_getElem?.mp he
  have hlt : i < (Note.allSites notes).length := by
    rw [← length_citations hr]
    exact (List.getElem?_eq_some_iff.mp hi).1
  have hx := List.getElem?_eq_getElem hlt
  obtain ⟨e', l, past, he', hf, hp, hc⟩ := citation_at hl hr hx
  rw [hi, Option.some.injEq] at he'
  exact ⟨i, _, l, past, hx, hf, hp, he' ▸ hc⟩

end Resolution

/-! ## A library to try the laws on -/

/-- Two books by authors of one name, and a case. -/
def Library.small : Library := Table.ofEntries (List.map (fun s : Source => (s.id, s)) [
  { id := "a", title := some "A", shortTitle := some "A", authors := [{ family := some "Ash" }], work := .book {} },
  { id := "b", title := some "B", shortTitle := some "B", authors := [{ family := some "ash" }], work := .book {} },
  { id := "c", title := some "C", shortTitle := some "C"
    work := .case { reporter := some "R.", volume := some "1", page := some "2" } }])

theorem Library.small_keyed : Library.small.Keyed := Library.keyed_ofEntries _

/-- A desk with empty tables. -/
def Desk.bare : Desk := { journals := Journals.ofTables [] [] }

/-- A note that mentions one source and nothing else. -/
def Note.citing (position number : Int) (source : Text) : Note :=
  ⟨position, number, [.mention { source := source } []]⟩

end Footcite
