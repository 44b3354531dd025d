import Footcite.Proofs.Resolution.Idem

/-!
# The full citation and the short ones after it

The record of a source is begun by its first citation and keeps the number of its note. So the first mention of a source
is cited in full, or in the long form if it is a case (`Ledger.Choice.form_of_first`), and every later mention of a
source other than a case is *id.* or refers back to that note (`Ledger.Choice.form_of_later`). For whole runs this is
`Resolution.full_then_short`.
-/

namespace Footcite

namespace Ledger.Choice

variable {l l' : Ledger} {s : Source} {position number : Int} {pincite : Option Text} {opens : Bool} {form : Form}

/-- The first citation of a source is a full one, and for a case the long form. -/
theorem form_of_first (h : l.Choice s position number pincite opens form l')
    (hrep : l.repeats s.id position = true → l.records.get? s.id ≠ none) (hn : l.records.get? s.id = none) :
    (s.isCase = true → form = .longCase) ∧ (s.isCase = false → ∃ flag, form = .full flag) := by
  cases h with
  | again hr => exact absurd hn (hrep hr)
  | firstCase _ _ hc => simp [hc]
  | firstUnauthored _ _ hc => simp [hc]
  | first _ _ hc => simp [hc]
  | laterCase _ hr => simp [hr] at hn
  | later _ hr => simp [hr] at hn

/-- A later citation of a source other than a case is *id.* or refers to the note of the first. -/
theorem form_of_later (h : l.Choice s position number pincite opens form l') {r : Record}
    (hr : l.records.get? s.id = some r) (hc : s.isCase = false) :
    form.IsId ∨ ∃ flag, form = .short r.firstNumber flag := by
  cases h with
  | again => exact .inl ⟨_, _, rfl⟩
  | firstCase _ hn => simp [hr] at hn
  | firstUnauthored _ hn => simp [hr] at hn
  | first _ hn => simp [hr] at hn
  | laterCase _ _ hc' => simp [hc] at hc'
  | later _ hr' =>
    rw [hr, Option.some.injEq] at hr'
    exact .inr ⟨_, by rw [hr']⟩

/-- A case is cited neither in full nor by a short form with a flag. -/
theorem form_of_case (h : l.Choice s position number pincite opens form l') (hc : s.isCase = true) :
    form.hereinafter? = none := by
  cases h with
  | again => rfl
  | firstCase => rfl
  | firstUnauthored _ _ hc' => simp [hc] at hc'
  | first _ _ hc' => simp [hc] at hc'
  | laterCase => split <;> rfl
  | later _ _ hc' => simp [hc] at hc'

end Ledger.Choice

namespace Draft.CitedFrom

variable {library : Library} {l : Ledger} {past : List Occurrence} {x : Site} {e : Draft}

/-- The citation of a source that has not been cited before. -/
theorem form_of_first (hl : library.Keyed) (h : e.CitedFrom library l x) (hf : l.Follows past)
    (hn : ∀ y ∈ past.filterMap Occurrence.site?, y.mention.source ≠ x.mention.source) :
    (e.source.isCase = true → e.form = .longCase) ∧ (e.source.isCase = false → ∃ flag, e.form = .full flag) := by
  obtain ⟨opens, form, l', hchoice, hform⟩ := h.chosen
  rw [← hl _ _ h.source, ← hf.get?_eq_none] at hn
  obtain ⟨hlong, hfull⟩ := hchoice.form_of_first hf.get?_of_repeats hn
  refine ⟨fun hc => ?_, fun hc => ?_⟩
  · rw [← Form.unflagged_eq rfl, hform, hlong hc]
    rfl
  · obtain ⟨flag, hfl⟩ := hfull hc
    rw [← Form.unflagged_eq_full, hform, hfl]
    rfl

/-- The citation of a source other than a case that has been cited before, in a note at first. -/
theorem form_of_later (hl : library.Keyed) (h : e.CitedFrom library l x) (hf : l.Follows past)
    (hc : e.source.isCase = false) {n : Note} {rest : List Note}
    (hn : citingNotes x.mention.source (past.filterMap Occurrence.site?) = n :: rest) :
    e.form.IsId ∨ ∃ flag, e.form = .short n.number flag := by
  obtain ⟨opens, form, l', hchoice, hform⟩ := h.chosen
  have hr := hf.records e.source.id
  rw [hl _ _ h.source, hn] at hr
  obtain ⟨r, hr, hu⟩ := Option.map_eq_some_iff.mp hr
  have hnum : r.firstNumber = n.number := congrArg Record.firstNumber hu
  rw [← hl _ _ h.source] at hr
  refine (hchoice.form_of_later hr hc).imp (fun hid => ?_) fun ⟨flag, hs⟩ => ?_
  · rwa [← Form.isId_unflagged, hform, Form.isId_unflagged]
  · rw [← Form.unflagged_eq_short, hform, hs, hnum]
    rfl

/-- The citation of a case. -/
theorem form_of_case (h : e.CitedFrom library l x) (hc : e.source.isCase = true) : e.form.hereinafter? = none := by
  obtain ⟨opens, form, l', hchoice, hform⟩ := h.chosen
  rw [← Form.hereinafter?_unflagged, hform, Form.hereinafter?_unflagged]
  exact hchoice.form_of_case hc

end Draft.CitedFrom

namespace Resolution

/-- The citations of a source are those of its mentions. -/
theorem citation_of_iff {library : Library} (hl : library.Keyed) {notes : List Note} {k k' : Desk} {r : Resolution}
    (hr : Gives (ofNotes library notes) k r k') {id : Text} {s : Source} (hs : library.get? id = some s) {j : Nat}
    {y : Site} {e : Draft} (hy : (Note.allSites notes)[j]? = some y) (he : r.citations[j]? = some e) :
    e.source = s ↔ y.mention.source = id := by
  obtain ⟨e', l, past, he', _, _, hc⟩ := citation_at hl hr hy
  rw [he, Option.some.injEq] at he'
  subst he'
  constructor
  · rintro rfl
    exact (hl _ _ hc.source).symm.trans (hl _ _ hs)
  · rintro rfl
    exact hc.source_eq hs

/-- A source that is mentioned is mentioned a first time. -/
theorem exists_first_mention {xs : List Site} {id : Text} (h : ∃ x ∈ xs, x.mention.source = id) :
    ∃ before x after, xs = before ++ x :: after ∧ x.mention.source = id ∧ ∀ y ∈ before, y.mention.source ≠ id := by
  obtain ⟨x, hx⟩ : ∃ x, xs.find? (fun x => x.mention.source = id) = some x := by
    apply Option.isSome_iff_exists.mp
    simpa using h
  obtain ⟨hid, before, after, hsplit, hb⟩ := List.find?_eq_some_iff_append.mp hx
  exact ⟨before, x, after, hsplit, by simpa using hid, fun y hy => by simpa using hb y hy⟩

/-- The mentions before a later one are led, among those of the source, by the first. -/
theorem citingNotes_take {xs before after : List Site} {x : Site} {id : Text} (hs : xs = before ++ x :: after)
    (hx : x.mention.source = id) (hb : ∀ y ∈ before, y.mention.source ≠ id) {j : Nat} (hj : before.length < j) :
    ∃ rest, citingNotes id (xs.take j) = x.note :: rest := by
  obtain ⟨i, rfl⟩ := Nat.exists_eq_add_of_lt hj
  refine ⟨citingNotes id (after.take i), ?_⟩
  rw [hs, show before.length + i + 1 = before.length + (i + 1) by omega, List.take_length_add_append,
    List.take_succ_cons, citingNotes_append, citingNotes_eq_nil.mpr hb, List.nil_append,
    show x :: after.take i = [x] ++ after.take i from rfl, citingNotes_append, citingNotes_singleton, if_pos hx]
  rfl

/-- **A source is cited in full once, at its first mention**, and from then on by *id.* or a short form that refers to
the note of that mention. A case is cited in its long form at first, and never in full or by a reference to a note. -/
theorem full_then_short {library : Library} (hl : library.Keyed) {notes : List Note} {k k' : Desk} {r : Resolution}
    (hr : Gives (ofNotes library notes) k r k') {id : Text} {s : Source} (hs : library.get? id = some s)
    (hcited : ∃ x ∈ Note.allSites notes, x.mention.source = id) :
    r.citations.length = (Note.allSites notes).length ∧
    (∀ (j : Nat) (y : Site) (e : Draft), (Note.allSites notes)[j]? = some y → r.citations[j]? = some e →
      (e.source = s ↔ y.mention.source = id)) ∧
    ∃ (i : Nat) (x : Site), (Note.allSites notes)[i]? = some x ∧ x.mention.source = id ∧
      (∀ (j : Nat) (y : Site), (Note.allSites notes)[j]? = some y → j < i → y.mention.source ≠ id) ∧
      (∃ e, r.citations[i]? = some e ∧ e.source = s ∧ (s.isCase = true → e.form = .longCase) ∧
        (s.isCase = false → ∃ flag, e.form = .full flag)) ∧
      ∀ (j : Nat) (y : Site), (Note.allSites notes)[j]? = some y → y.mention.source = id → j ≠ i →
        ∃ e, r.citations[j]? = some e ∧ e.source = s ∧ (s.isCase = true → e.form.hereinafter? = none) ∧
          (s.isCase = false → e.form.IsId ∨ ∃ flag, e.form = .short x.note.number flag) := by
  refine ⟨length_citations hr, fun j y e hy he => citation_of_iff hl hr hs hy he, ?_⟩
  obtain ⟨before, x, after, hsplit, hxid, hb⟩ := exists_first_mention hcited
  have hxi : (Note.allSites notes)[before.length]? = some x := by simp [hsplit]
  have hbefore : ∀ (j : Nat) (y : Site), (Note.allSites notes)[j]? = some y → j < before.length →
      y.mention.source ≠ id := by
    intro j y hy hj
    rw [hsplit, List.getElem?_append_left hj] at hy
    exact hb y (List.mem_of_getElem? hy)
  refine ⟨before.length, x, hxi, hxid, hbefore, ?_, ?_⟩
  · obtain ⟨e, l, past, he, hf, hp, hc⟩ := citation_at hl hr hxi
    have hes := hc.source_eq (hxid ▸ hs)
    refine ⟨e, he, hes, hes ▸ hc.form_of_first hl hf fun y hy => ?_⟩
    rw [hp, hsplit, List.take_left'] at hy
    · exact hxid ▸ hb y hy
    · rfl
  · intro j y hy hyid hne
    obtain ⟨e, l, past, he, hf, hp, hc⟩ := citation_at hl hr hy
    have hes := hc.source_eq (hyid ▸ hs)
    have hj : before.length < j := by
      rcases Nat.lt_or_ge j before.length with h | h
      · exact absurd hyid (hbefore j y hy h)
      · omega
    obtain ⟨rest, hrest⟩ := citingNotes_take hsplit hxid hb hj
    refine ⟨e, he, hes, fun hcase => hc.form_of_case (hes ▸ hcase), fun hcase => ?_⟩
    exact hc.form_of_later hl hf (hes ▸ hcase) (by rw [hp, hyid]; exact hrest)

/-- Three notes, displayed from minus one on: a book, another one, and the first again. -/
def interleaved : List Note := [.citing 1 (-1) "a", .citing 2 0 "b", .citing 3 1 "a"]

/-- The last citation there refers to the first note, if it is not *id.* -/
theorem short_refers_to_first_note : ∃ r k', Gives (ofNotes Library.small interleaved) Desk.bare r k' ∧
    ∃ e, r.citations[2]? = some e ∧ (e.form.IsId ∨ ∃ flag, e.form = .short (-1) flag) := by
  obtain ⟨r, k', hr⟩ : ∃ r k', Gives (ofNotes Library.small interleaved) Desk.bare r k' :=
    exists_gives (by decide +kernel)
  obtain ⟨s, hs, hc⟩ : ∃ s, Library.small.get? "a" = some s ∧ s.isCase = false := ⟨_, rfl, rfl⟩
  obtain ⟨_, _, i, x, hx, hxid, hbefore, _, hlater⟩ :=
    full_then_short Library.small_keyed hr hs ⟨_, List.mem_cons_self, rfl⟩
  -- The first mention of the book is the first of all.
  have hi : i = 0 := by
    by_contra h
    exact hbefore 0 _ rfl (by omega) rfl
  subst hi
  cases hx
  obtain ⟨e, he, _, _, hshort⟩ := hlater 2 _ rfl rfl (by omega)
  exact ⟨r, k', hr, e, he, hshort hc⟩

end Resolution

end Footcite
