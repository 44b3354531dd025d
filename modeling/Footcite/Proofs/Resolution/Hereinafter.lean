import Footcite.Proofs.Citation.Steady
import Footcite.Proofs.Ledger.Authors
import Footcite.Proofs.Resolution.FullThenShort

/-!
# Short names and texts

A later citation may show that an earlier one needs a short name. In the end no trace is left of the order in which this
came out: a full or short citation is flagged exactly when the notes cite another source by the same first author
(`Resolution.flag_iff`), and its text is the one that its final form has at every desk with the same tables of journals
(`Resolution.text_eq`), whether it was written anew or not.
-/

namespace Footcite

/-! ## Texts -/

/-- The text of a draft is that of its form, wherever the tables serve. -/
def Draft.Written (user bundled : Table Text) (d : Draft) : Prop :=
  ∀ k : Desk, k.journals.Serves user bundled →
    (outcome (d.source.cite d.form d.pincite d.parenthetical) k).1 = .ok d.text

variable {user bundled : Table Text} {library : Library}

/-- What is cited is written so, and the tables serve on. -/
theorem Cites.written_text {l l' : Ledger} {k k' : Desk} {x : Site} {d : Draft} (hc : Cites library l k x d l' k')
    (hk : k.journals.Serves user bundled) : d.Written user bundled ∧ k'.journals.Serves user bundled := by
  obtain ⟨k₁, ht, rfl⟩ := hc.written
  obtain ⟨hk₁, hw⟩ := (d.source.cite_steady _ _ _).gives hk ht
  exact ⟨hw, hk₁⟩

/-- Every draft of a walk is written so. -/
theorem Walk.written {l l' : Ledger} {k k' : Desk} {os : List Occurrence} {ds : List Draft}
    (hw : Walk library l k os ds l' k') (hk : k.journals.Serves user bundled) :
    (∀ d ∈ ds, d.Written user bundled) ∧ k'.journals.Serves user bundled := by
  induction hw with
  | done => exact ⟨by simp, hk⟩
  | cite hc _ ih =>
    obtain ⟨hd, hk₁⟩ := hc.written_text hk
    obtain ⟨hds, hk'⟩ := ih hk₁
    exact ⟨List.forall_mem_cons.mpr ⟨hd, hds⟩, hk'⟩
  | interrupt _ ih => exact ih hk

/-- A settled draft is written so, if it was before. -/
theorem Draft.Written.settle {l : Ledger} {d e : Draft} {k k' : Desk} (h : Gives (d.settle l) k e k')
    (hk : k.journals.Serves user bundled) :
    (d.Written user bundled → e.Written user bundled) ∧ k'.journals.Serves user bundled := by
  rcases (Draft.settle_gives h).2 with ⟨rfl, rfl⟩ | ht
  · exact ⟨id, hk⟩
  · obtain ⟨hk', hw⟩ := (e.source.cite_steady _ _ _).gives hk ht
    exact ⟨fun _ => hw, hk'⟩

namespace Resolution

variable {notes : List Note} {k k' : Desk} {r : Resolution}

/-- **The text of every citation is that of its final form**, its pincite and its parenthetical. -/
theorem text_eq (hk : k.journals.Serves user bundled) (hr : Gives (ofNotes library notes) k r k') :
    ∀ e ∈ r.citations, e.Written user bundled := by
  obtain ⟨ds, l, k₁, k₂, hw, hs, -⟩ := ofNotes_gives hr
  obtain ⟨hds, hk₁⟩ := hw.written hk
  have hsettled : List.Forall₂ (fun d e => d.Written user bundled → e.Written user bundled) ds r.citations :=
    (Gives.mapM (P := fun k => k.journals.Serves user bundled) (fun hk h => Draft.Written.settle h hk) hk₁ hs).1
  intro e he
  obtain ⟨i, hi, rfl⟩ := List.mem_iff_getElem.mp he
  have hi' : i < ds.length := hsettled.length_eq ▸ hi
  exact hsettled.get hi' hi (hds _ (List.getElem_mem hi'))

end Resolution

/-! ## Flags -/

/-- A flag in the end is that of the record. -/
theorem Draft.Settles.flag {l : Ledger} {d e : Draft} (h : d.Settles l e) {flag : Bool}
    (hf : e.form.hereinafter? = some flag) : ∃ r, l.records.get? e.source.id = some r ∧ r.hereinafter = flag := by
  have hsource : e.source = d.source := by rw [h.same]
  cases hd : d.form.hereinafter? with
  | none =>
    rw [h.unflagged hd, hd] at hf
    cases hf
  | some before =>
    obtain ⟨r, hr, hform⟩ := h.flagged before hd
    refine ⟨r, hsource ▸ hr, ?_⟩
    rw [hform] at hf
    cases hdf : d.form <;> simp_all [Form.hereinafter?, Form.withHereinafter]

namespace Resolution

variable {notes : List Note} {k k' : Desk} {r : Resolution}

/-- **A full or short citation is flagged exactly when the notes cite another source by its first author.** -/
theorem flag_iff (hl : library.Keyed) (hr : Gives (ofNotes library notes) k r k') {e : Draft} (he : e ∈ r.citations)
    {flag : Bool} (hflag : e.form.hereinafter? = some flag) : flag = true ↔ ∃ y ∈ Note.allSites notes, ∃ key,
      y.mention.source ≠ e.source.id ∧ library.authorOf y.mention.source = some key ∧
        library.authorOf e.source.id = some key := by
  obtain ⟨ds, l, k₁, hw, hs⟩ := ofNotes_settles hr
  obtain ⟨i, hi, rfl⟩ := List.mem_iff_getElem.mp he
  obtain ⟨record, hrecord, rfl⟩ := (hs.get (hs.length_eq ▸ hi) hi).flag hflag
  rw [(hw.grouped hl .empty).flag_iff hrecord]
  -- The sources with a record in the end are those that the notes cite.
  have hcited (id : Text) : l.records.get? id ≠ none ↔ ∃ y ∈ Note.allSites notes, y.mention.source = id := by
    rw [Ne, (hw.follows hl .empty).get?_eq_none, List.nil_append]
    simp only [not_forall, ne_eq, not_not, exists_prop]
    rfl
  constructor
  · rintro ⟨id, key, hne, hid, hik, hk⟩
    obtain ⟨y, hy, rfl⟩ := (hcited id).mp hid
    exact ⟨y, hy, key, hne, hik, hk⟩
  · rintro ⟨y, hy, key, hne, hyk, hk⟩
    exact ⟨y.mention.source, key, hne, (hcited _).mpr ⟨y, hy, rfl⟩, hyk, hk⟩

/-- **Short names are settled by what is cited, in any order.** Each mention has one citation, of its source, with its
pincite and, if that holds no tokens, its parenthetical. If the citation is full or short, it has the flag exactly when
the notes cite another source, not a case, whose first author has the same key, and the key is not empty. Its text is
that of its final form, wherever the tables of journals are the same. -/
theorem hereinafter_iff_shared_author (hl : library.Keyed) (hk : k.journals.Serves user bundled)
    (hr : Gives (ofNotes library notes) k r k') :
    r.citations.length = (Note.allSites notes).length ∧
    ∀ (i : Nat) (x : Site) (e : Draft), (Note.allSites notes)[i]? = some x → r.citations[i]? = some e →
      library.get? x.mention.source = some e.source ∧ Pincite.clean e.source.id x.mention.pincite = .ok e.pincite ∧
        e.parenthetical = x.parenthetical ∧
      (∀ flag, e.form.hereinafter? = some flag → e.source.isCase = false ∧
        (flag = true ↔ ∃ y ∈ Note.allSites notes, y.mention.source ≠ x.mention.source ∧
          ∃ s key, library.get? y.mention.source = some s ∧ s.isCase = false ∧ key ≠ [] ∧ s.authorKey = some key ∧
            e.source.authorKey = some key)) ∧
      ∀ k₁ : Desk, k₁.journals.Serves user bundled →
        (outcome (e.source.cite e.form e.pincite e.parenthetical) k₁).1 = .ok e.text := by
  refine ⟨length_citations hr, fun i x e hx he => ?_⟩
  have hmem := List.mem_of_getElem? he
  obtain ⟨e', l, past, he', _, _, hcf⟩ := citation_at hl hr hx
  rw [he, Option.some.injEq] at he'
  subst he'
  refine ⟨hcf.source, hcf.pincite, hcf.parenthetical, fun flag hflag => ?_, text_eq hk hr e hmem⟩
  have hcase : e.source.isCase = false := by
    by_contra hc
    rw [hcf.form_of_case (by simpa using hc)] at hflag
    cases hflag
  refine ⟨hcase, ?_⟩
  rw [flag_iff hl hr hmem hflag, hl _ _ hcf.source]
  constructor
  · rintro ⟨y, hy, key, hne, hyk, hxk⟩
    obtain ⟨s, hs, hc, hk, hkey⟩ := Library.authorOf_eq_some.mp hyk
    obtain ⟨s', hs', _, hk', _⟩ := Library.authorOf_eq_some.mp hxk
    rw [hcf.source, Option.some.injEq] at hs'
    exact ⟨y, hy, hne, s, key, hs, hc, hkey, hk, hs' ▸ hk'⟩
  · rintro ⟨y, hy, hne, s, key, hs, hc, hkey, hk, hk'⟩
    exact ⟨y, hy, key, hne, Library.authorOf_eq_some.mpr ⟨s, hs, hc, hk, hkey⟩,
      Library.authorOf_eq_some.mpr ⟨e.source, hcf.source, hcase, hk', hkey⟩⟩

/-- A book cited before one by an author of the same name has the flag all the same, and is written with it. -/
theorem flagged_before_the_other : ∃ r k', Gives (ofNotes Library.small interleaved) Desk.bare r k' ∧
    ∃ e, r.citations[0]? = some e ∧ e.form.hereinafter? = some true ∧
      (outcome (e.source.cite e.form e.pincite e.parenthetical) Desk.bare).1 = .ok e.text := by
  obtain ⟨r, k', hr, hflag⟩ : ∃ r k', Gives (ofNotes Library.small interleaved) Desk.bare r k' ∧
      (r.citations[0]?.bind fun e => e.form.hereinafter?).isSome = true := exists_gives_that (by decide +kernel)
  have hserves : Desk.bare.journals.Serves (Journals.keyed []) (Journals.keyed []) := Journals.ofTables_serves [] []
  obtain ⟨_, hcitations⟩ := hereinafter_iff_shared_author Library.small_keyed hserves hr
  obtain ⟨flag, hflag⟩ := Option.isSome_iff_exists.mp hflag
  obtain ⟨e, he, hflag⟩ := Option.bind_eq_some_iff.mp hflag
  obtain ⟨hsource, _, _, hiff, htext⟩ := hcitations 0 _ e rfl he
  have hauthor : ∀ id ∈ (["a", "b"] : List Text), (Library.small.get? id).bind Source.authorKey = some "ash" := by
    decide +kernel
  have ha : e.source.authorKey = some "ash" := by
    have ha := hauthor "a" (by simp)
    rwa [show Library.small.get? "a" = some e.source from hsource] at ha
  obtain ⟨s, hs, hb⟩ := Option.bind_eq_some_iff.mp (hauthor "b" (by simp))
  have hcase : s.isCase = false := by
    by_contra hc
    rw [Source.authorKey_of_isCase (by simpa using hc)] at hb
    cases hb
  have htrue := ((hiff flag hflag).2).mpr
    ⟨_, List.mem_of_getElem? (i := 1) rfl, by decide, s, "ash", hs, hcase, by decide, hb, ha⟩
  exact ⟨r, k', hr, e, he, htrue ▸ hflag, htext Desk.bare hserves⟩

end Resolution

end Footcite
