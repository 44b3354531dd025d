import Footcite.Proofs.Citation.Citable
import Footcite.Proofs.Resolution.FullThenShort

/-!
# Settling cannot fail

The second walk may write a citation in a form in which it was never written before: in full with a short name, or short
with one. But the first mention of its source was cited in full, so the source is citable (`Walk.citable`), and the
pincite and the number that the citation points back to have been written once. So whatever the first walk has drafted
is settled, at every desk (`Walk.settles`, `Note.settles_of_draftAll`), and notes that are not resolved have been stopped
before the second walk (`Resolution.ofNotes_error`).
-/

namespace Footcite

/-! ## Citable sources -/

/-- The source of the mention is citable. -/
def Site.Citable (library : Library) (x : Site) : Prop := ∀ s, library.get? x.mention.source = some s → s.Citable

variable {library : Library} {l l' : Ledger} {k k' : Desk} {x : Site} {d : Draft}

namespace Cites

/-- The first mention of a source is cited in full. -/
theorem isFull_of_first (hl : library.Keyed) (hc : Cites library l k x d l' k') {past : List Occurrence}
    (hf : l.Follows past) (hn : ∀ y ∈ past.filterMap Occurrence.site?, y.mention.source ≠ x.mention.source) :
    d.form.IsFull := by
  obtain ⟨opens, l₁, hchoose, -⟩ := hc.chosen
  rw [← hl _ _ hc.source, ← hf.get?_eq_none] at hn
  obtain ⟨hlong, hfull⟩ := (Ledger.choice_of_choose hchoose).form_of_first hf.get?_of_repeats hn
  cases hcase : d.source.isCase with
  | true => exact .inl (hlong hcase)
  | false => exact .inr (hfull hcase)

/-- What has been cited is citable, at first because it was cited in full, and later because it was at first. -/
theorem citable (hl : library.Keyed) (hc : Cites library l k x d l' k') {past : List Occurrence} (hf : l.Follows past)
    (hpast : ∀ y ∈ past.filterMap Occurrence.site?, y.Citable library) : x.Citable library := by
  intro s hs
  by_cases hearlier : ∃ y ∈ past.filterMap Occurrence.site?, y.mention.source = x.mention.source
  · obtain ⟨y, hy, hsource⟩ := hearlier
    exact hpast y hy s (hsource ▸ hs)
  · have hn : ∀ y ∈ past.filterMap Occurrence.site?, y.mention.source ≠ x.mention.source := by simpa using hearlier
    obtain ⟨k₁, hwritten, -⟩ := hc.written
    rw [hc.source, Option.some.injEq] at hs
    exact hs ▸ Source.citable_of_full (hc.isFull_of_first hl hf hn) hwritten

/-- The form of a citation applies to its source. -/
theorem applies (hc : Cites library l k x d l' k') : d.form.Applies d.source := by
  obtain ⟨opens, l₁, hchoose, -⟩ := hc.chosen
  obtain ⟨k₁, hwritten, -⟩ := hc.written
  exact Source.applies_of_gives hwritten (Ledger.choice_of_choose hchoose).isCase_of_short

end Cites

namespace Walk

variable {os : List Occurrence} {ds : List Draft}

/-- **Every source that a walk has come by is citable.** -/
theorem citable (hl : library.Keyed) (hw : Walk library l k os ds l' k') : ∀ {past : List Occurrence}, l.Follows past →
    (∀ x ∈ past.filterMap Occurrence.site?, x.Citable library) →
      ∀ x ∈ (past ++ os).filterMap Occurrence.site?, x.Citable library := by
  induction hw with
  | done =>
    intro past _ hpast
    rwa [List.append_nil]
  | @cite _ _ _ _ _ _ x _ os _ hc _ ih =>
    intro past hf hpast
    have hpast' : ∀ y ∈ (past ++ [Occurrence.mention x]).filterMap Occurrence.site?, y.Citable library := by
      rw [List.filterMap_append]
      exact List.forall_mem_append.mpr ⟨hpast, List.forall_mem_singleton.mpr (hc.citable hl hf hpast)⟩
    simpa using ih (hf.cite hl hc) hpast'
  | @interrupt _ _ _ _ n os _ _ ih =>
    intro past hf hpast
    have hpast' : ∀ y ∈ (past ++ [Occurrence.breaker n]).filterMap Occurrence.site?, y.Citable library := by
      rw [List.filterMap_append]
      exact List.forall_mem_append.mpr ⟨hpast, by simp [Occurrence.site?]⟩
    simpa using ih (hf.interrupt n) hpast'

/-- Every draft of a walk is that of a mention. -/
theorem exists_cites (hw : Walk library l k os ds l' k') : ∀ d ∈ ds, ∃ x l₁ k₁ l₂ k₂,
    x ∈ os.filterMap Occurrence.site? ∧ Cites library l₁ k₁ x d l₂ k₂ := by
  induction hw with
  | done => simp
  | cite hc _ ih =>
    refine List.forall_mem_cons.mpr ⟨⟨_, _, _, _, _, List.mem_cons_self, hc⟩, fun d hd => ?_⟩
    obtain ⟨x, l₁, k₁, l₂, k₂, hx, hc'⟩ := ih d hd
    exact ⟨x, l₁, k₁, l₂, k₂, List.mem_cons_of_mem _ hx, hc'⟩
  | interrupt _ ih => exact ih

end Walk

/-! ## Settling -/

/-- A draft of a citable source that is on record is settled, if its form applies and its pincite names a place. -/
theorem Draft.exists_settles (hs : d.source.Citable) (hform : d.form.Applies d.source)
    (hpin : ∃ pin, Pincite.clean d.source.id d.pincite = .ok pin) (hr : l.records.get? d.source.id ≠ none) (k : Desk) :
    ∃ e k', Gives (d.settle l) k e k' := by
  unfold Draft.settle
  split
  · exact ⟨d, k, rfl⟩
  · split
    · next hnone => exact absurd hnone hr
    · next r _ =>
      split
      · exact ⟨d, k, rfl⟩
      · obtain ⟨pin, hpin⟩ := hpin
        obtain ⟨text, k', htext⟩ := hs.cite (hform.withHereinafter r.hereinafter) hpin d.parenthetical k
        simp only [gives_bind, Editing.gives_inNote, gives_pure]
        exact ⟨_, k', text, k', htext, rfl, rfl⟩

/-- **The drafts of a walk are settled**, at every desk, in the ledger at its end. -/
theorem Walk.settles (hl : library.Keyed) {os : List Occurrence} {ds : List Draft} (hw : Walk library {} k os ds l k') :
    ∀ d ∈ ds, ∀ k₁, ∃ e k₂, Gives (d.settle l) k₁ e k₂ := by
  intro d hd k₁
  obtain ⟨x, l₁, k₂, l₂, k₃, hx, hc⟩ := hw.exists_cites d hd
  obtain ⟨k₄, hwritten, -⟩ := hc.written
  obtain ⟨pin, -, hpin, -⟩ := Source.gives_cite.mp hwritten
  have hs : d.source.Citable := hw.citable hl .empty (by simp) x (by simpa using hx) d.source hc.source
  exact Draft.exists_settles hs hc.applies ⟨pin, hpin⟩ (hw.recorded hl d hd) k₁

/-- **Once all notes have been walked through, the second walk does not fail**, whatever the desk it is begun at. -/
theorem Note.settles_of_draftAll (hl : library.Keyed) {anchors : Anchors} {notes : List Note} {pss : List (List Piece)}
    (h : Gives (Note.draftAll library anchors {} notes) k (pss, l) k') (k₁ : Desk) :
    ∃ qss k₂, Gives (pss.mapM fun ps => ps.mapM (Piece.settle l)) k₁ qss k₂ := by
  have hw := (Note.draftAll_gives h).2
  refine exists_gives_mapM (fun ps hps => exists_gives_mapM fun p hp k₂ => ?_) k₁
  cases p with
  | text t => exact ⟨.text t, k₂, rfl⟩
  | cite d =>
    have hd : d ∈ pss.flatMap (List.filterMap Piece.draft?) :=
      List.mem_flatMap.mpr ⟨ps, hps, List.mem_filterMap.mpr ⟨.cite d, hp, rfl⟩⟩
    obtain ⟨e, k₃, he⟩ := hw.settles hl d hd k₂
    exact ⟨.cite e, k₃, gives_map.mpr ⟨e, he, rfl⟩⟩

/-- **Notes are not resolved for an anchor that is bound twice, or for what stops the first walk.** -/
theorem Resolution.ofNotes_error (hl : library.Keyed) {notes : List Note} {e : Failure}
    (h : (outcome (ofNotes library notes) k).1 = .error e) :
    Anchors.ofNotes notes = .error e ∨ ∃ crossrefs, Anchors.ofNotes notes = .ok crossrefs ∧
      (outcome (Note.draftAll library crossrefs {} notes) k).1 = .error e := by
  unfold ofNotes at h
  rcases outcome_bind_error h with h | ⟨_, _, hget, h⟩
  · cases h
  obtain ⟨-, rfl⟩ := gives_get.mp hget
  rcases outcome_bind_error h with h | ⟨crossrefs, _, ha, h⟩
  · exact .inl h
  obtain ⟨hcrossrefs, rfl⟩ := gives_liftM.mp ha
  rcases outcome_bind_error h with h | ⟨⟨pss, l⟩, k₁, hdrafts, h⟩
  · exact .inr ⟨crossrefs, hcrossrefs, h⟩
  obtain ⟨qss, k₂, hsettled⟩ := Note.settles_of_draftAll hl hdrafts k₁
  rcases outcome_bind_error h with h | ⟨_, _, -, h⟩
  · rw [hsettled] at h
    cases h
  · cases h

end Footcite
