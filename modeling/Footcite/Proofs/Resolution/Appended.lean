import Footcite.Proofs.Ledger.Growth
import Footcite.Proofs.Resolution.Citation
import Footcite.Proofs.Resolution.Pieces
import Footcite.Proofs.Resolution.Steady

/-!
# Notes that are appended

What comes of some notes is compared with what comes of the same notes with others after them. The first walk through
the common notes is the same, since the anchors of the others add to theirs and take none away
(`Note.draftAll_extends`). From there on the ledger grows, and all that a grown ledger changes in the second walk is to
flag citations that were not flagged (`Draft.Kept`). So the citations stay but for flags that are raised, and the notes
without such a flag keep their texts (`Resolution.appended`).
-/

namespace Footcite

/-! ## Anchors -/

namespace Anchors

/-- The anchors of the one are anchors of the other, under the same numbers. -/
def Extends (a a' : Anchors) : Prop := ∀ ref number, a.get? ref = some number → a'.get? ref = some number

theorem extends_bind {a a' : Anchors} {ref : Text} {number : Int} (h : a.bind ref number = .ok a') :
    a.Extends a' := by
  unfold Anchors.bind at h
  split at h
  · cases h
  · next hnone =>
    cases h
    intro ref' number' h
    rw [Table.get?_set, if_neg]
    · exact h
    · rintro rfl
      rw [hnone] at h
      cases h

/-- Binding goes on from the anchors there are. -/
theorem extends_bindAll : ∀ {entries : List (Text × Int)} {a a' : Anchors},
    entries.foldlM (fun a (ref, number) => Anchors.bind a ref number) a = .ok a' → a.Extends a'
  | [], a, _, h => by
    cases h
    exact fun _ _ h => h
  | (ref, number) :: entries, a, a', h => by
    rw [List.foldlM_cons] at h
    obtain ⟨a₁, hbind, hrest⟩ := Except.bind_ok h
    exact fun ref' number' h => extends_bindAll hrest ref' number' (extends_bind hbind ref' number' h)

/-- More notes have more anchors. -/
theorem ofNotes_extends {notes more : List Note} {a a' : Anchors} (h : ofNotes notes = .ok a)
    (h' : ofNotes (notes ++ more) = .ok a') : a.Extends a' := by
  have hentries : entries (notes ++ more) = entries notes ++ entries more := List.flatMap_append
  unfold ofNotes at h h'
  rw [hentries, List.foldlM_append] at h'
  obtain ⟨a₁, h₁, hrest⟩ := Except.bind_ok h'
  rw [h, Except.ok.injEq] at h₁
  exact extends_bindAll (h₁ ▸ hrest)

end Anchors

/-! ## The first walk -/

variable {library : Library} {anchors anchors' : Anchors}

/-- A step that is taken is taken alike with more anchors. -/
theorem Step.take_extends {n : Note} {l l' : Ledger} {k k' : Desk} {ps : List Piece} (ha : anchors.Extends anchors') :
    ∀ {s : Step}, Gives (s.take library anchors n l) k (ps, l') k' → Gives (s.take library anchors' n l) k (ps, l') k'
  | .text _, h => h
  | .cite .., h => h
  | .interrupt, h => h
  | .use ref, h => by
    simp only [Step.take, gives_bind, gives_liftM] at h ⊢
    obtain ⟨number, k₁, ⟨hn, hk₁⟩, h⟩ := h
    exact ⟨number, k₁, ⟨Anchors.lookup_eq_ok.mpr (ha ref number (Anchors.lookup_eq_ok.mp hn)), hk₁⟩, h⟩

theorem Step.takeAll_extends {n : Note} (ha : anchors.Extends anchors') :
    ∀ {steps : List Step} {l l' : Ledger} {k k' : Desk} {ps : List Piece},
      Gives (Step.takeAll library anchors n l steps) k (ps, l') k' →
        Gives (Step.takeAll library anchors' n l steps) k (ps, l') k'
  | [], _, _, _, _, _, h => h
  | _ :: _, _, _, _, _, _, h => by
    simp only [Step.takeAll, gives_bind] at h ⊢
    obtain ⟨_, _, hs, _, _, hr, h⟩ := h
    exact ⟨_, _, Step.take_extends ha hs, _, _, Step.takeAll_extends ha hr, h⟩

/-- **The first walk** is the same with more anchors. -/
theorem Note.draftAll_extends (ha : anchors.Extends anchors') :
    ∀ {notes : List Note} {l l' : Ledger} {k k' : Desk} {pss : List (List Piece)},
      Gives (Note.draftAll library anchors l notes) k (pss, l') k' →
        Gives (Note.draftAll library anchors' l notes) k (pss, l') k'
  | [], _, _, _, _, _, h => h
  | _ :: _, _, _, _, _, _, h => by
    simp only [Note.draftAll, gives_bind] at h ⊢
    obtain ⟨_, _, hs, _, _, hr, h⟩ := h
    exact ⟨_, _, Step.takeAll_extends ha hs, _, _, Note.draftAll_extends ha hr, h⟩

/-- Notes are walked through one part of them after another. -/
theorem Note.draftAll_append {notes more : List Note} : ∀ {l l' : Ledger} {k k' : Desk} {pss : List (List Piece)},
    Gives (Note.draftAll library anchors l (notes ++ more)) k (pss, l') k' → ∃ qss qss' l₁ k₁, pss = qss ++ qss' ∧
      Gives (Note.draftAll library anchors l notes) k (qss, l₁) k₁ ∧
      Gives (Note.draftAll library anchors l₁ more) k₁ (qss', l') k' := by
  induction notes with
  | nil => exact fun {l l' k k' pss} h => ⟨[], pss, l, k, rfl, gives_pure.mpr ⟨rfl, rfl⟩, h⟩
  | cons n notes ih =>
    intro l l' k k' pss h
    simp only [List.cons_append, Note.draftAll, gives_bind, gives_pure] at h
    obtain ⟨⟨pieces, l₁⟩, k₁, hs, ⟨others, l₂⟩, _, hr, he, rfl⟩ := h
    cases he
    obtain ⟨qss, qss', l₃, k₂, rfl, hq, hq'⟩ := ih hr
    refine ⟨pieces :: qss, qss', l₃, k₂, rfl, ?_, hq'⟩
    simp only [Note.draftAll, gives_bind, gives_pure]
    exact ⟨(pieces, l₁), k₁, hs, (qss, l₃), k₂, hq, rfl, rfl⟩

/-! ## The second walk -/

/-- **What later notes do to a citation**: it keeps its place, source, pincite and parenthetical. It keeps its form too,
or the flag of its form is raised; and while the flag is the same, so is the citation. -/
structure Draft.Kept (e e' : Draft) : Prop where
  same : e' = { e with form := e'.form, text := e'.text }
  form : e'.form = e.form ∨ e.form.hereinafter? = some false ∧ e'.form = e.form.withHereinafter true
  unraised : e'.form.hereinafter? = e.form.hereinafter? → e' = e

namespace Draft.Kept

theorem refl (e : Draft) : e.Kept e := ⟨rfl, .inl rfl, fun _ => rfl⟩

end Draft.Kept

/-- Setting a flag once more leaves nothing of the first time. -/
theorem Form.withHereinafter_withHereinafter (f : Form) (flag flag' : Bool) :
    (f.withHereinafter flag).withHereinafter flag' = f.withHereinafter flag' := by
  cases f <;> rfl

/-- The flag of a form that has one is the one that was set. -/
theorem Form.hereinafter?_withHereinafter {f : Form} {before : Bool} (h : f.hereinafter? = some before) (flag : Bool) :
    (f.withHereinafter flag).hereinafter? = some flag := by
  cases f <;> simp_all [Form.hereinafter?, Form.withHereinafter]

/-- Settling depends on the ledger by the flag of the source only. -/
theorem Draft.settle_congr {l l' : Ledger} {d : Draft} {r r' : Record} (hr : l.records.get? d.source.id = some r)
    (hr' : l'.records.get? d.source.id = some r') (hflag : r'.hereinafter = r.hereinafter) :
    d.settle l' = d.settle l := by
  unfold Draft.settle
  simp only [hr, hr', hflag]

/-- **A draft settled in a ledger, and in one that this has grown into.** -/
theorem Draft.settle_kept {l l' : Ledger} (hgrows : l.Grows l') {d e e' : Draft} {k : Desk}
    (h : (outcome (d.settle l) k).1 = .ok e) (h' : (outcome (d.settle l') k).1 = .ok e') : e.Kept e' := by
  have hs := (Draft.settle_gives (Prod.ext h rfl : Gives (d.settle l) k e _)).1
  have hs' := (Draft.settle_gives (Prod.ext h' rfl : Gives (d.settle l') k e' _)).1
  cases hf : d.form.hereinafter? with
  | none =>
    have hunread (l : Ledger) : d.settle l = pure d := by
      unfold Draft.settle
      rw [hf]
    rw [hunread] at h h'
    cases h
    cases h'
    exact .refl d
  | some flag =>
    obtain ⟨r, hr, he⟩ := hs.flagged flag hf
    obtain ⟨r', hr', he'⟩ := hs'.flagged flag hf
    obtain ⟨_, hgrown, hraised⟩ := hgrows _ r hr
    rw [hr', Option.some.injEq] at hgrown
    subst hgrown
    by_cases hflag : r'.hereinafter = r.hereinafter
    · rw [Draft.settle_congr hr hr' hflag, h, Except.ok.injEq] at h'
      exact h' ▸ .refl e
    · have hfalse : r.hereinafter = false := by
        cases hh : r.hereinafter with
        | false => rfl
        | true => exact absurd ((hraised hh).trans hh.symm) hflag
      have htrue : r'.hereinafter = true := by simpa [hfalse] using hflag
      have hef := he ▸ Form.hereinafter?_withHereinafter hf r.hereinafter
      have hef' := he' ▸ Form.hereinafter?_withHereinafter hf r'.hereinafter
      refine ⟨?_, .inr ⟨hfalse ▸ hef, ?_⟩, fun hsame => ?_⟩
      · rw [hs'.same, hs.same]
      · rw [he', he, Form.withHereinafter_withHereinafter, htrue]
      · rw [hef, hef', Option.some.injEq] at hsame
        exact absurd hsame hflag

/-- A piece before and after later notes. -/
inductive Piece.Kept : Piece → Piece → Prop
  | text (t : Text) : Kept (.text t) (.text t)
  | cite {e e' : Draft} : e.Kept e' → Kept (.cite e) (.cite e')

theorem Piece.settle_kept {l l' : Ledger} (hgrows : l.Grows l') {k : Desk} {p q q' : Piece}
    (h : (outcome (p.settle l) k).1 = .ok q) (h' : (outcome (p.settle l') k).1 = .ok q') : q.Kept q' := by
  cases p with
  | text t =>
    cases h
    cases h'
    exact .text t
  | cite d =>
    have hg : Gives (Piece.settle l (.cite d)) k q _ := Prod.ext h rfl
    have hg' : Gives (Piece.settle l' (.cite d)) k q' _ := Prod.ext h' rfl
    rw [Piece.settle, gives_map] at hg hg'
    obtain ⟨e, he, rfl⟩ := hg
    obtain ⟨e', he', rfl⟩ := hg'
    exact .cite (Draft.settle_kept hgrows (congrArg Prod.fst he) (congrArg Prod.fst he'))

/-- Two lists that are related to one list are related to each other. -/
theorem forall₂_of_forall₂ {α β γ : Type} {R : α → β → Prop} {S : α → γ → Prop} {T : β → γ → Prop} {xs : List α}
    {ys : List β} {zs : List γ} (hr : List.Forall₂ R xs ys) (hs : List.Forall₂ S xs zs)
    (h : ∀ x y z, R x y → S x z → T y z) : List.Forall₂ T ys zs := by
  induction hr generalizing zs with
  | nil =>
    cases hs
    exact .nil
  | cons hxy _ ih =>
    cases hs with
    | cons hxz hs => exact .cons (h _ _ _ hxy hxz) (ih hs)

variable {user bundled : Table Text}

/-- What steady work on several things gives, it gives for each of them at one desk that the tables serve. -/
theorem Editing.Steady.mapM_gives {α β : Type} {f : α → Editing β} (hf : ∀ a, Steady user bundled (f a))
    {k₀ k k' : Desk} (hk₀ : k₀.journals.Serves user bundled) (hk : k.journals.Serves user bundled) {xs : List α}
    {ys : List β} (h : Gives (xs.mapM f) k ys k') :
    List.Forall₂ (fun x y => (outcome (f x) k₀).1 = .ok y) xs ys ∧ k'.journals.Serves user bundled := by
  refine Gives.mapM (P := fun k => k.journals.Serves user bundled) (fun hs h => ?_) hk h
  obtain ⟨hs', hends⟩ := (hf _).gives hs h
  exact ⟨hends k₀ hk₀, hs'⟩

/-- The pieces of a note settled in a ledger, and in one that this has grown into. -/
theorem Piece.settleAll_kept {l l' : Ledger} (hgrows : l.Grows l') {k : Desk}
    (hk : k.journals.Serves user bundled) {ps qs qs' : List Piece}
    (h : (outcome (ps.mapM (Piece.settle l)) k).1 = .ok qs)
    (h' : (outcome (ps.mapM (Piece.settle l')) k).1 = .ok qs') : List.Forall₂ Piece.Kept qs qs' := by
  have hs := (Editing.Steady.mapM_gives (fun p => (p.settle_asking l).steady) hk hk (Prod.ext h rfl)).1
  have hs' := (Editing.Steady.mapM_gives (fun p => (p.settle_asking l').steady) hk hk (Prod.ext h' rfl)).1
  exact forall₂_of_forall₂ hs hs' fun _ _ _ => Piece.settle_kept hgrows

/-- The citations among pieces that are kept. -/
theorem Piece.kept_drafts {ps ps' : List Piece} (h : List.Forall₂ Piece.Kept ps ps') :
    List.Forall₂ Draft.Kept (ps.filterMap Piece.draft?) (ps'.filterMap Piece.draft?) := by
  induction h with
  | nil => exact .nil
  | cons hp _ ih =>
    cases hp with
    | text => exact ih
    | cite he => exact .cons he ih

/-- Pieces none of whose flags is raised. -/
theorem Piece.eq_of_kept {ps ps' : List Piece} (h : List.Forall₂ Piece.Kept ps ps')
    (hflags : (ps'.filterMap Piece.draft?).map (·.form.hereinafter?) =
      (ps.filterMap Piece.draft?).map (·.form.hereinafter?)) : ps' = ps := by
  induction h with
  | nil => rfl
  | cons hp _ ih =>
    cases hp with
    | text => rw [ih hflags]
    | cite he =>
      simp only [List.filterMap_cons, Piece.draft?, List.map_cons, List.cons.injEq] at hflags
      rw [he.unraised hflags.1, ih hflags.2]

/-! ## Notes -/

/-- The citations of a settled note. -/
def SettledNote.citations (s : SettledNote) : List Draft := s.pieces.filterMap Piece.draft?

/-- A settled note before and after later notes. -/
structure SettledNote.Kept (s s' : SettledNote) : Prop where
  note : s'.note = s.note
  pieces : List.Forall₂ Piece.Kept s.pieces s'.pieces

/-- Notes put together with pieces that are kept. -/
theorem SettledNote.kept_of_pieces : ∀ {notes : List Note} {pss pss' : List (List Piece)},
    List.Forall₂ (List.Forall₂ Piece.Kept) pss pss' →
      List.Forall₂ SettledNote.Kept (List.zipWith SettledNote.mk notes pss) (List.zipWith SettledNote.mk notes pss')
  | [], _, _, _ => .nil
  | _ :: _, _, _, .nil => .nil
  | _ :: _, _, _, .cons hp hps => .cons ⟨rfl, hp⟩ (SettledNote.kept_of_pieces hps)

namespace Resolution

variable {notes more : List Note} {k k' k₁ k₁' : Desk} {r r' : Resolution}

/-- **The notes that were there first are kept** when others are appended. -/
theorem settled_appended (hk : k.journals.Serves user bundled) (hk' : k'.journals.Serves user bundled)
    (hr : Gives (ofNotes library notes) k r k₁) (hr' : Gives (ofNotes library (notes ++ more)) k' r' k₁') :
    ∃ kept later, r'.settled = kept ++ later ∧ List.Forall₂ SettledNote.Kept r.settled kept := by
  obtain ⟨pss, l, kd, qss, ks, ha, hd, hs, hlen, hsettled, -⟩ := ofNotes_stages hr
  obtain ⟨pssAll, l', kd', qssAll, ks', ha', hd', hs', hlen', hsettled', -⟩ := ofNotes_stages hr'
  -- Both first walks give the same for the notes that are there first.
  obtain ⟨pss', pssMore, l₁, ke, rfl, hfirst, hmore⟩ := Note.draftAll_append hd'
  have hsteady : Editing.Steady user bundled (Note.draftAll library r'.crossrefs {} notes) :=
    Note.draftAll_steady library r'.crossrefs {} notes
  obtain ⟨hkd, hends⟩ := hsteady.gives hk (Note.draftAll_extends (Anchors.ofNotes_extends ha ha') hd)
  have hfirst_ok : (outcome (Note.draftAll library r'.crossrefs {} notes) k').1 = .ok (pss', l₁) :=
    congrArg Prod.fst hfirst
  rw [hends k' hk', Except.ok.injEq, Prod.mk.injEq] at hfirst_ok
  obtain ⟨rfl, rfl⟩ := hfirst_ok
  have hgrows : l.Grows l' := (Note.draftAll_gives hmore).2.grows
  -- The second walks go through them in a ledger, and in one that this has grown into.
  have hkd' := ((Note.draftAll_steady library r'.crossrefs {} (notes ++ more)).gives hk' hd').1
  have hall (l : Ledger) (ps : List Piece) : Editing.Steady user bundled (ps.mapM (Piece.settle l)) :=
    (Editing.Asking.mapM (Piece.settle_asking l) ps).steady
  obtain ⟨hpieces, -⟩ := Editing.Steady.mapM_gives (hall l) hk hkd hs
  obtain ⟨hpiecesAll, -⟩ := Editing.Steady.mapM_gives (hall l') hk hkd' hs'
  obtain ⟨qss', qssMore, rfl, hpieces', -⟩ := exists_forall₂_append hpiecesAll
  have hkept := forall₂_of_forall₂ hpieces hpieces' fun _ _ _ => Piece.settleAll_kept hgrows hk
  refine ⟨List.zipWith SettledNote.mk notes qss', List.zipWith SettledNote.mk more qssMore, ?_, ?_⟩
  · have hlength : notes.length = qss'.length := hlen.symm.trans hpieces'.length_eq
    rw [hsettled', List.zipWith_append hlength]
  · rw [hsettled]
    exact SettledNote.kept_of_pieces hkept

/-- **Appending notes rewrites no history.** Where some notes are resolved, and the same notes with others after them,
the citations of the former come first among those of the latter: one by one the same in place, source, pincite and
form, but that the flag of a form may be raised; and one whose flag is not raised has the same text. Note by note, the
same holds of the citations in it, and where no flag is raised among them the note has the same text. -/
theorem appended (hk : k.journals.Serves user bundled) (hk' : k'.journals.Serves user bundled)
    (hr : Gives (ofNotes library notes) k r k₁) (hr' : Gives (ofNotes library (notes ++ more)) k' r' k₁') :
    (∃ kept later, r'.citations = kept ++ later ∧ List.Forall₂ Draft.Kept r.citations kept) ∧
    ∀ (i : Nat) (n : Note), notes[i]? = some n → ∃ s s', r.settled[i]? = some s ∧ r'.settled[i]? = some s' ∧
      s.note = n ∧ s'.note = n ∧ List.Forall₂ Draft.Kept s.citations s'.citations ∧
      (s'.citations.map (·.form.hereinafter?) = s.citations.map (·.form.hereinafter?) →
        r'.texts[i]? = r.texts[i]?) := by
  obtain ⟨kept, later, hsettled, hkept⟩ := settled_appended hk hk' hr hr'
  refine ⟨⟨kept.flatMap SettledNote.citations, later.flatMap SettledNote.citations, ?_, ?_⟩, fun i n hn => ?_⟩
  · show r'.settled.flatMap SettledNote.citations = _
    rw [hsettled, List.flatMap_append]
  · show List.Forall₂ Draft.Kept (r.settled.flatMap SettledNote.citations) _
    exact List.rel_flatMap hkept fun _ _ h => Piece.kept_drafts h.pieces
  · have hnotes : r.settled.map (·.note) = notes := (settled_become hr).2.1
    rw [← hnotes, List.getElem?_map] at hn
    obtain ⟨s, hs, rfl⟩ := Option.map_eq_some_iff.mp hn
    obtain ⟨hi, rfl⟩ := List.getElem?_eq_some_iff.mp hs
    have hi' : i < kept.length := hkept.length_eq ▸ hi
    have hs' : r'.settled[i]? = some kept[i] := by
      rw [hsettled, List.getElem?_append_left hi', List.getElem?_eq_getElem hi']
    have h : SettledNote.Kept r.settled[i] kept[i] := hkept.get hi hi'
    refine ⟨_, kept[i], hs, hs', rfl, h.note, Piece.kept_drafts h.pieces, fun hflags => ?_⟩
    simp only [texts, List.getElem?_map, hs, hs', Option.map_some, SettledNote.text]
    rw [Piece.eq_of_kept h.pieces hflags]

/-- A book that is cited alone, and with a note after it that cites another by an author of the same name: its citation
is flagged, and the texts of the two differ. -/
theorem appended_flag : ∃ r r' k k', Gives (ofNotes Library.small [.citing 1 1 "a"]) Desk.bare r k ∧
    Gives (ofNotes Library.small ([.citing 1 1 "a"] ++ [.citing 2 2 "b"])) Desk.bare r' k' ∧
    (∃ kept later, r'.citations = kept ++ later ∧ List.Forall₂ Draft.Kept r.citations kept) ∧
    r.citations.map (·.form) = [.full false] ∧ r'.citations.map (·.form) = [.full true, .full true] ∧
    r'.texts[0]? ≠ r.texts[0]? := by
  have hserves : Desk.bare.journals.Serves (Journals.keyed []) (Journals.keyed []) := Journals.ofTables_serves [] []
  obtain ⟨r, k, hr, hok⟩ := exists_gives_that (x := ofNotes Library.small [.citing 1 1 "a"]) (s := Desk.bare)
    (p := fun r => r.citations.map (·.form) = [.full false] && r.texts = ["**Ash**, **A**".toList]) (by decide +kernel)
  obtain ⟨r', k', hr', hok'⟩ := exists_gives_that (s := Desk.bare)
    (x := ofNotes Library.small ([.citing 1 1 "a"] ++ [.citing 2 2 "b"]))
    (p := fun r => r.citations.map (·.form) = [.full true, .full true] && r.texts[0]? ≠ some "**Ash**, **A**".toList)
    (by decide +kernel)
  simp only [Bool.and_eq_true, decide_eq_true_eq] at hok hok'
  obtain ⟨hcitations, -⟩ := appended hserves hserves hr hr'
  refine ⟨r, r', k, k', hr, hr', hcitations, hok.1, hok'.1, ?_⟩
  rw [hok.2]
  exact hok'.2

end Resolution

end Footcite
