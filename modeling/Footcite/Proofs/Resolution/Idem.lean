import Footcite.Proofs.Document.Notes
import Footcite.Proofs.Resolution.Citation

/-!
# When a citation is *id.*

A ledger that follows what was read takes a mention for a repetition exactly when the occurrence just before is a
mention of the same source that stands at the same position or is not one of several (`Ledger.Follows.repeats_iff`). For
the notes of a document this is the law of *id.* (`Resolution.id_iff_just_before`): the citation just before is of the
same source, and stands in the same note or alone in its own.
-/

namespace Footcite

/-- The form is *id.* -/
def Form.IsId (f : Form) : Prop := ∃ opens repeated, f = .id opens repeated

theorem Form.isId_unflagged {f : Form} : f.unflagged.IsId ↔ f.IsId :=
  exists₂_congr fun _ _ => unflagged_eq rfl

namespace Ledger

variable {l l' : Ledger} {past : List Occurrence} {s : Source} {position number : Int} {pincite : Option Text}
  {opens : Bool} {form : Form}

/-- The form chosen is *id.* exactly when the source is the one just cited. -/
theorem Choice.isId_iff (h : l.Choice s position number pincite opens form l') :
    form.IsId ↔ l.repeats s.id position = true := by
  cases h with
  | again hr => exact ⟨fun _ => hr, fun _ => ⟨_, _, rfl⟩⟩
  | firstCase hr => simp [Form.IsId, hr]
  | firstUnauthored hr => simp [Form.IsId, hr]
  | first hr => simp [Form.IsId, hr]
  | laterCase hr =>
    rw [hr]
    split <;> simp [Form.IsId]
  | later hr => simp [Form.IsId, hr]

/-- A chosen *id.* says whether the pincite is the one just cited. -/
theorem Choice.repeated (h : l.Choice s position number pincite opens form l') {opens' repeated : Bool}
    (hf : form = .id opens' repeated) : repeated = l.repeatsPincite pincite := by
  have hr := h.isId_iff.mp ⟨_, _, hf⟩
  cases h with
  | again => cases hf; rfl
  | firstCase hr' => simp [hr] at hr'
  | firstUnauthored hr' => simp [hr] at hr'
  | first hr' => simp [hr] at hr'
  | laterCase hr' => simp [hr] at hr'
  | later hr' => simp [hr] at hr'

/-- A mention repeats a source when the occurrence just before is a mention of it, in its place or alone. -/
theorem Follows.repeats_iff (h : l.Follows past) {id : Text} : l.repeats id position = true ↔
    ∃ y, past.getLast? = some (.mention y) ∧ y.mention.source = id ∧
      (y.note.position = position ∨ y.mention.inString = false) := by
  unfold repeats
  rw [h.last]
  cases hp : past.getLast? with
  | none => simp
  | some o =>
    cases o with
    | mention y =>
      simp only [Option.map_some, Occurrence.asLast, Option.some.injEq, Occurrence.mention.injEq, exists_eq_left',
        Bool.and_eq_true, Bool.or_eq_true, Bool.not_eq_true', decide_eq_true_eq]
      rw [or_comm]
    | breaker n => simp [Occurrence.asLast]

end Ledger

namespace Draft.CitedFrom

variable {library : Library} {l : Ledger} {past : List Occurrence} {x y : Site} {e : Draft}

/-- A citation is *id.* exactly when the occurrence just before mentions its source, in its place or alone. -/
theorem isId_iff (hl : library.Keyed) (h : e.CitedFrom library l x) (hf : l.Follows past) : e.form.IsId ↔
    ∃ y, past.getLast? = some (.mention y) ∧ y.mention.source = x.mention.source ∧
      (y.note.position = x.note.position ∨ y.mention.inString = false) := by
  obtain ⟨opens, form, l', hchoice, hform⟩ := h.chosen
  rw [← Form.isId_unflagged, hform, Form.isId_unflagged, hchoice.isId_iff, hl _ _ h.source, hf.repeats_iff]

/-- A citation by *id.* says whether its pincite is that of the mention just before. -/
theorem repeated_iff (h : e.CitedFrom library l x) (hf : l.Follows past) {opens repeated : Bool}
    (hid : e.form = .id opens repeated) (hy : past.getLast? = some (.mention y)) :
    repeated = true ↔ ∃ pin, e.pincite = some pin ∧ y.mention.pincite.bind Pincite.normalize = some pin := by
  obtain ⟨opens', form, l', hchoice, hform⟩ := h.chosen
  have hform' : form = .id opens repeated := by
    rw [← Form.unflagged_eq rfl, ← hform, hid]
    rfl
  have hlast : l.last = some (Occurrence.mention y).asLast := by rw [hf.last, hy, Option.map_some]
  rw [hchoice.repeated hform', Ledger.repeatsPincite, hlast]
  cases e.pincite <;> simp [Occurrence.asLast, eq_comm]

end Draft.CitedFrom

/-- In a document, a mention stands in the place of another or is not one of several exactly when they share their note
or its own note has no other mention. -/
theorem Document.same_place_iff {offset : Int} {t : Text} {d : Document} (hd : Document.read offset t = .ok d)
    {x y : Site} (hx : x.note ∈ d.notes) (hy : y.note ∈ d.notes) (hm : y.mention ∈ y.note.mentions) :
    (y.note.position = x.note.position ∨ y.mention.inString = false) ↔
      (y.note = x.note ∨ y.note.mentions.length = 1) := by
  have hnote : y.note.position = x.note.position ↔ y.note = x.note :=
    ⟨Document.eq_of_position hd hy hx, fun h => by rw [h]⟩
  have halone : y.mention.inString = false ↔ y.note.mentions.length = 1 := by
    rw [← Bool.not_eq_true, Document.inString_iff hd hy hm, not_not]
  rw [hnote, halone]

namespace Resolution

/-- **The law of *id.***: in a document, a citation is *id.* exactly when a mention of the same source comes just before
it, no breaker between, in the same note or as the only mention of its own. The pincite is then said to be repeated
exactly when both mentions have a pincite and it is the same. -/
theorem id_iff_just_before {library : Library} (hl : library.Keyed) {offset : Int} {t : Text} {d : Document}
    (hd : Document.read offset t = .ok d) {k k' : Desk} {r : Resolution} (hr : Gives (ofNotes library d.notes) k r k')
    {before after : List Occurrence} {x : Site} (ho : Note.allOccurrences d.notes = before ++ .mention x :: after) :
    ∃ e, r.citations[(before.filterMap Occurrence.site?).length]? = some e ∧
      library.get? x.mention.source = some e.source ∧
      (e.form.IsId ↔ ∃ y, before.getLast? = some (.mention y) ∧ y.mention.source = x.mention.source ∧
        (y.note = x.note ∨ y.note.mentions.length = 1)) ∧
      ∀ opens repeated, e.form = .id opens repeated → ∀ y, before.getLast? = some (.mention y) →
        (repeated = true ↔ ∃ pin, Pincite.clean x.mention.source x.mention.pincite = .ok (some pin) ∧
          Pincite.clean y.mention.source y.mention.pincite = .ok (some pin)) := by
  have hsites {y : Site} (hy : .mention y ∈ before ++ .mention x :: after) : y.note ∈ d.notes ∧
      y.mention ∈ y.note.mentions := by
    apply Note.mem_allSites
    exact List.mem_filterMap.mpr ⟨.mention y, ho ▸ hy, rfl⟩
  obtain ⟨hxn, _⟩ := hsites (y := x) (by simp)
  obtain ⟨e, l, he, hf, hc⟩ := citation_after hl hr ho
  refine ⟨e, he, hc.source, ?_, ?_⟩
  · rw [hc.isId_iff hl hf]
    apply exists_congr
    intro y
    apply and_congr_right
    intro hy
    obtain ⟨hyn, hym⟩ := hsites (List.mem_append_left _ (List.mem_of_getLast? hy))
    rw [Document.same_place_iff hd hxn hyn hym]
  · intro opens repeated hid y hy
    -- The mention before was cited in turn, so its pincite was cleaned, and the ledger holds what came of it.
    obtain ⟨before', rfl⟩ := List.getLast?_eq_some_iff.mp hy
    have ho' : Note.allOccurrences d.notes = before' ++ .mention y :: (.mention x :: after) := by simpa using ho
    obtain ⟨e', _, _, _, hc'⟩ := citation_after hl hr ho'
    rw [hc.repeated_iff hf hid hy, ← Pincite.clean_ok hc'.pincite, ← hl _ _ hc.source, hc.pincite, ← hl _ _ hc'.source,
      hc'.pincite]
    simp

/-- A document whose only note mentions a source, and mentions it again in the parenthetical. -/
def nestedRepetition : Document := ⟨[⟨[], "[@a] tk ([@a] tk)", ⟨1, 1, [
  .mention { source := "a", inString := true, pincite := some "tk", parenthetical := some "[@a] tk" } [
    .mention { source := "a", ordinal := 1, inString := true, pincite := some "tk" } []]]⟩⟩], []⟩

/-- The second mention there is *id.*, with the pincite of the first. -/
theorem id_in_parenthetical : Document.read 0 "^[[@a] tk ([@a] tk)]" = .ok nestedRepetition ∧
    ∃ r k', Gives (ofNotes Library.small nestedRepetition.notes) Desk.bare r k' ∧
      ∃ e opens, r.citations[1]? = some e ∧ e.form = .id opens true := by
  have hd : Document.read 0 "^[[@a] tk ([@a] tk)]" = .ok nestedRepetition := by decide +kernel
  obtain ⟨r, k', hr⟩ : ∃ r k', Gives (ofNotes Library.small nestedRepetition.notes) Desk.bare r k' :=
    exists_gives (by decide +kernel)
  refine ⟨hd, r, k', hr, ?_⟩
  have ho : Note.allOccurrences nestedRepetition.notes = [_] ++ .mention _ :: _ := rfl
  obtain ⟨e, he, _, hid, hpin⟩ := id_iff_just_before Library.small_keyed hd hr ho
  obtain ⟨opens, repeated, hf⟩ := hid.mpr ⟨_, rfl, rfl, .inl rfl⟩
  have hrep := (hpin opens repeated hf _ rfl).mpr ⟨"tk", by decide +kernel, by decide +kernel⟩
  exact ⟨e, opens, he, hrep ▸ hf⟩

end Resolution

end Footcite
