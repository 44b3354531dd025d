import Footcite.Proofs.Gives
import Footcite.Proofs.Occurrence
import Footcite.Resolution.Basic

/-!
# The walk through the notes

A resolution that succeeds is a walk through the occurrences of its notes (`Walk`): each mention is cited (`Cites`),
each breaker enters the ledger, and nothing else that stands in a note matters for a citation. The drafts of the walk
are then settled one after another in the ledger at its end (`Resolution.ofNotes_gives`), which changes no more than the
form and the text of a citation (`Draft.Settles`). Working through a document is to read it and to resolve its notes
(`gives_process`).
-/

namespace Footcite

/-- **How a mention is cited**: from the ledger `l` at the desk `k`, as `d`; it leaves `l'` and `k'`. -/
structure Cites (library : Library) (l : Ledger) (k : Desk) (x : Site) (d : Draft) (l' : Ledger) (k' : Desk) :
    Prop where
  source : library.get? x.mention.source = some d.source
  pincite : Pincite.clean d.source.id x.mention.pincite = .ok d.pincite
  position : d.position = x.note.position
  number : d.number = x.note.number
  parenthetical : d.parenthetical = x.parenthetical
  chosen : ∃ opens l₁, l.choose d.source x.note.position x.note.number d.pincite opens = .ok (d.form, l₁) ∧
    l' = l₁.enterCitation d.source.id x.note.position x.mention.inString d.pincite
  written : ∃ k₁, Gives (d.source.cite d.form d.pincite d.parenthetical) k d.text k₁ ∧
    k' = { k₁ with log := k₁.log ++ [.decided x.note.number d.source.id d.form] }

/-- **A walk through occurrences**, with the drafts of its mentions. -/
inductive Walk (library : Library) : Ledger → Desk → List Occurrence → List Draft → Ledger → Desk → Prop
  | done (l : Ledger) (k : Desk) : Walk library l k [] [] l k
  | cite {l l₁ l' : Ledger} {k k₁ k' : Desk} {x : Site} {d : Draft} {os : List Occurrence} {ds : List Draft} :
      Cites library l k x d l₁ k₁ → Walk library l₁ k₁ os ds l' k' → Walk library l k (.mention x :: os) (d :: ds) l' k'
  | interrupt {l l' : Ledger} {k k' : Desk} {n : Note} {os : List Occurrence} {ds : List Draft} :
      Walk library (l.interrupt n.position) k os ds l' k' → Walk library l k (.breaker n :: os) ds l' k'

namespace Walk

variable {library : Library} {l l' : Ledger} {k k' : Desk} {os : List Occurrence} {ds : List Draft}

/-- Walks compose. -/
theorem append {os' : List Occurrence} {ds' : List Draft} {l₁ : Ledger} {k₁ : Desk}
    (h : Walk library l k os ds l₁ k₁) (h' : Walk library l₁ k₁ os' ds' l' k') :
    Walk library l k (os ++ os') (ds ++ ds') l' k' := by
  induction h with
  | done l k => exact h'
  | cite hc _ ih => exact .cite hc (ih h')
  | interrupt _ ih => exact .interrupt (ih h')

/-- A walk through two lists of occurrences is a walk through the one and then through the other. -/
theorem split : ∀ {os os' : List Occurrence} {ds : List Draft} {l l' : Ledger} {k k' : Desk},
    Walk library l k (os ++ os') ds l' k' → ∃ ds₁ ds₂ l₁ k₁, ds = ds₁ ++ ds₂ ∧
      Walk library l k os ds₁ l₁ k₁ ∧ Walk library l₁ k₁ os' ds₂ l' k'
  | [], _, ds, l, _, k, _, h => ⟨[], ds, l, k, rfl, .done l k, h⟩
  | .mention x :: os, _, _, _, _, _, _, h => by
    cases h with
    | cite hc hw =>
      obtain ⟨ds₁, ds₂, l₁, k₁, rfl, h₁, h₂⟩ := split hw
      exact ⟨_ :: ds₁, ds₂, l₁, k₁, rfl, .cite hc h₁, h₂⟩
  | .breaker n :: os, _, _, _, _, _, _, h => by
    cases h with
    | interrupt hw =>
      obtain ⟨ds₁, ds₂, l₁, k₁, rfl, h₁, h₂⟩ := split hw
      exact ⟨ds₁, ds₂, l₁, k₁, rfl, .interrupt h₁, h₂⟩

/-- Each mention has one draft. -/
theorem length_drafts (h : Walk library l k os ds l' k') : ds.length = (os.filterMap Occurrence.site?).length := by
  induction h with
  | done l k => rfl
  | cite _ _ ih => simp [Occurrence.site?, ih]
  | interrupt _ ih => exact ih

/-- The draft of a mention stands behind those of the mentions before it. -/
theorem at_mention {before after : List Occurrence} {x : Site}
    (h : Walk library l k (before ++ .mention x :: after) ds l' k') :
    ∃ d ds₁ l₁ k₁ l₂ k₂, ds[(before.filterMap Occurrence.site?).length]? = some d ∧
      Walk library l k before ds₁ l₁ k₁ ∧ Cites library l₁ k₁ x d l₂ k₂ := by
  obtain ⟨ds₁, ds₂, l₁, k₁, rfl, h₁, h₂⟩ := h.split
  cases h₂ with
  | cite hc _ =>
    refine ⟨_, ds₁, l₁, k₁, _, _, ?_, h₁, hc⟩
    rw [← h₁.length_drafts]
    simp

end Walk

/-! ## The first walk -/

/-- Writing the citation of a mention is citing it. -/
theorem Draft.write_gives {library : Library} {n : Note} {l l' : Ledger} {m : Mention} {p : Option Text}
    {before : List Segment} {k k' : Desk} {d : Draft} (h : Gives (Draft.write library n l m p before) k (d, l') k') :
    Cites library l k ⟨n, m, p⟩ d l' k' := by
  unfold Draft.write at h
  split at h
  · exact absurd h gives_throw
  · next source hs =>
    simp only [gives_bind, gives_pure, gives_liftM, Editing.gives_inNote, Editing.gives_note] at h
    obtain ⟨pincite, _, ⟨hp, rfl⟩, ⟨form, l₁⟩, _, ⟨hc, rfl⟩, text, k₁, ht, _, _, rfl, he, rfl⟩ := h
    cases he
    exact ⟨hs, hp, rfl, rfl, rfl, ⟨_, l₁, hc, rfl⟩, k₁, ht, rfl⟩

/-- The occurrence of a first step comes first. -/
theorem Step.occurrences_cons (n : Note) (s : Step) (steps : List Step) :
    (s :: steps).filterMap (Step.occurrence? n) = (s.occurrence? n).toList ++ steps.filterMap (Step.occurrence? n) := by
  cases hs : s.occurrence? n <;> simp [hs]

/-- A step in a note is a walk through its occurrence, if it has one. -/
theorem Step.take_gives {library : Library} {anchors : Anchors} {n : Note} {l l' : Ledger} {k k' : Desk}
    {pieces : List Piece} : ∀ {s : Step}, Gives (s.take library anchors n l) k (pieces, l') k' →
      Walk library l k (s.occurrence? n).toList (pieces.filterMap Piece.draft?) l' k'
  | .text t, h => by
    simp only [Step.take, gives_pure] at h
    obtain ⟨he, rfl⟩ := h
    cases he
    exact .done l k
  | .cite m p before, h => by
    simp only [Step.take, gives_bind, gives_pure] at h
    obtain ⟨⟨d, l₁⟩, _, hw, he, rfl⟩ := h
    cases he
    exact .cite (Draft.write_gives hw) (.done l₁ _)
  | .interrupt, h => by
    simp only [Step.take, gives_pure] at h
    obtain ⟨he, rfl⟩ := h
    cases he
    exact .interrupt (.done _ k)
  | .use ref, h => by
    simp only [Step.take, gives_bind, gives_pure, gives_liftM] at h
    obtain ⟨number, _, ⟨_, rfl⟩, numeral, _, ⟨_, rfl⟩, he, rfl⟩ := h
    cases he
    exact .done l k

/-- The steps of a note are a walk through their occurrences. -/
theorem Step.takeAll_gives {library : Library} {anchors : Anchors} {n : Note} :
    ∀ {steps : List Step} {l l' : Ledger} {k k' : Desk} {pieces : List Piece},
      Gives (Step.takeAll library anchors n l steps) k (pieces, l') k' →
        Walk library l k (steps.filterMap (Step.occurrence? n)) (pieces.filterMap Piece.draft?) l' k'
  | [], l, _, k, _, _, h => by
    simp only [Step.takeAll, gives_pure] at h
    obtain ⟨he, rfl⟩ := h
    cases he
    exact .done l k
  | s :: steps, _, _, _, _, _, h => by
    simp only [Step.takeAll, gives_bind, gives_pure] at h
    obtain ⟨⟨pieces, l₁⟩, k₁, hs, ⟨more, l₂⟩, _, hr, he, rfl⟩ := h
    cases he
    rw [List.filterMap_append, Step.occurrences_cons]
    exact (Step.take_gives hs).append (Step.takeAll_gives hr)

/-- The notes are walked through one after another; each has the pieces of its text. -/
theorem Note.draftAll_gives {library : Library} {anchors : Anchors} :
    ∀ {notes : List Note} {l l' : Ledger} {k k' : Desk} {pieces : List (List Piece)},
      Gives (Note.draftAll library anchors l notes) k (pieces, l') k' → pieces.length = notes.length ∧
        Walk library l k (Note.allOccurrences notes) (pieces.flatMap (List.filterMap Piece.draft?)) l' k'
  | [], l, _, k, _, _, h => by
    simp only [Note.draftAll, gives_pure] at h
    obtain ⟨he, rfl⟩ := h
    cases he
    exact ⟨rfl, .done l k⟩
  | n :: notes, _, _, _, _, _, h => by
    simp only [Note.draftAll, gives_bind, gives_pure] at h
    obtain ⟨⟨pieces, l₁⟩, k₁, hs, ⟨more, l₂⟩, _, hr, he, rfl⟩ := h
    cases he
    obtain ⟨hl, hw⟩ := Note.draftAll_gives hr
    have h₁ := Step.takeAll_gives hs
    rw [n.steps_occurrences] at h₁
    exact ⟨by simp [hl], h₁.append hw⟩

/-! ## The second walk -/

/-- **What settling changes**: the flag of a full or short form becomes that of the record, and with it the text. -/
structure Draft.Settles (l : Ledger) (d e : Draft) : Prop where
  same : e = { d with form := e.form, text := e.text }
  unflagged : d.form.hereinafter? = none → e.form = d.form
  flagged : ∀ flag, d.form.hereinafter? = some flag →
    ∃ r, l.records.get? d.source.id = some r ∧ e.form = d.form.withHereinafter r.hereinafter

/-- Setting the flag that a form has changes nothing. -/
theorem Form.withHereinafter_self {f : Form} {flag : Bool} (h : f.hereinafter? = some flag) :
    f.withHereinafter flag = f := by
  cases f <;> simp_all [Form.hereinafter?, Form.withHereinafter]

/-- A settled draft is the draft itself, or it was written anew. -/
theorem Draft.settle_gives {l : Ledger} {d e : Draft} {k k' : Desk} (h : Gives (d.settle l) k e k') :
    d.Settles l e ∧ (e = d ∧ k' = k ∨ Gives (e.source.cite e.form e.pincite e.parenthetical) k e.text k') := by
  unfold Draft.settle at h
  split at h
  · next hf =>
    rw [gives_pure] at h
    obtain ⟨rfl, rfl⟩ := h
    exact ⟨⟨rfl, fun _ => rfl, fun flag h => by simp [hf] at h⟩, .inl ⟨rfl, rfl⟩⟩
  · next flag hf =>
    have hn : d.form.hereinafter? ≠ none := by simp [hf]
    split at h
    · exact absurd h gives_throw
    · next r hr =>
      split at h
      · next hrf =>
        rw [gives_pure] at h
        obtain ⟨rfl, rfl⟩ := h
        refine ⟨⟨rfl, fun h => absurd h hn, fun _ _ => ⟨r, hr, ?_⟩⟩, .inl ⟨rfl, rfl⟩⟩
        rw [hrf, Form.withHereinafter_self hf]
      · simp only [gives_bind, gives_pure, Editing.gives_inNote] at h
        obtain ⟨text, k₁, ht, rfl, rfl⟩ := h
        exact ⟨⟨rfl, fun h => absurd h hn, fun _ _ => ⟨r, hr, rfl⟩⟩, .inr ht⟩

/-- The citations of settled pieces are the settled citations of the pieces. -/
theorem Piece.settleAll_gives {l : Ledger} : ∀ {ps qs : List Piece} {k k' : Desk},
    Gives (ps.mapM (Piece.settle l)) k qs k' →
      Gives ((ps.filterMap Piece.draft?).mapM (Draft.settle l)) k (qs.filterMap Piece.draft?) k'
  | [], _, _, _, h => by
    rw [List.mapM_nil, gives_pure] at h
    obtain ⟨rfl, rfl⟩ := h
    simp
  | .text t :: ps, _, _, _, h => by
    simp only [List.mapM_cons, gives_bind, gives_pure, Piece.settle] at h
    obtain ⟨_, _, ⟨rfl, rfl⟩, qs, k₁, hps, rfl, rfl⟩ := h
    rw [List.filterMap_cons_none rfl, List.filterMap_cons_none rfl]
    exact Piece.settleAll_gives hps
  | .cite d :: ps, _, _, _, h => by
    simp only [List.mapM_cons, gives_bind, gives_pure, Piece.settle, gives_map] at h
    obtain ⟨_, k₁, ⟨e, hd, rfl⟩, qs, k₂, hps, rfl, rfl⟩ := h
    simp only [List.filterMap_cons, Piece.draft?, List.mapM_cons, gives_bind, gives_pure]
    exact ⟨e, k₁, hd, qs.filterMap Piece.draft?, k₂, Piece.settleAll_gives hps, rfl, rfl⟩

/-- The notes are settled one after another. -/
theorem Piece.settleNotes_gives {l : Ledger} : ∀ {pss qss : List (List Piece)} {k k' : Desk},
    Gives (pss.mapM fun ps => ps.mapM (Piece.settle l)) k qss k' → qss.length = pss.length ∧
      Gives ((pss.flatMap (List.filterMap Piece.draft?)).mapM (Draft.settle l)) k
        (qss.flatMap (List.filterMap Piece.draft?)) k'
  | [], _, _, _, h => by
    rw [List.mapM_nil, gives_pure] at h
    obtain ⟨rfl, rfl⟩ := h
    simp
  | ps :: pss, _, _, _, h => by
    simp only [List.mapM_cons, gives_bind, gives_pure] at h
    obtain ⟨qs, k₁, hps, qss, k₂, hpss, rfl, rfl⟩ := h
    obtain ⟨hl, hs⟩ := Piece.settleNotes_gives hpss
    refine ⟨by simp [hl], ?_⟩
    simp only [List.flatMap_cons, List.mapM_append, gives_bind, gives_pure]
    exact ⟨_, k₁, Piece.settleAll_gives hps, _, k₂, hs, rfl, rfl⟩

/-! ## The whole resolution -/

namespace Resolution

/-- The citations of a resolution are those of the pieces of its notes. -/
theorem citations_of_settled {r : Resolution} {notes : List Note} {pss : List (List Piece)}
    (hr : r.settled = List.zipWith SettledNote.mk notes pss) (h : pss.length = notes.length) :
    r.citations = pss.flatMap (List.filterMap Piece.draft?) := by
  rw [citations, hr]
  clear hr
  induction notes generalizing pss with
  | nil =>
    cases pss with
    | nil => rfl
    | cons ps pss => simp at h
  | cons n notes ih =>
    cases pss with
    | nil => simp at h
    | cons ps pss =>
      simp only [List.zipWith_cons_cons, List.flatMap_cons]
      rw [ih (by simpa using h)]

/-- How a resolution comes about that succeeds: the anchors are bound, the notes are walked through, and their pieces
are settled in the ledger at the end. The journals have then noted what is new since the beginning. -/
theorem ofNotes_stages {library : Library} {notes : List Note} {k k' : Desk} {r : Resolution}
    (h : Gives (ofNotes library notes) k r k') :
    ∃ pss l k₁ qss k₂, Anchors.ofNotes notes = .ok r.crossrefs ∧
      Gives (Note.draftAll library r.crossrefs {} notes) k (pss, l) k₁ ∧
      Gives (pss.mapM fun ps => ps.mapM (Piece.settle l)) k₁ qss k₂ ∧
      pss.length = notes.length ∧ r.settled = List.zipWith SettledNote.mk notes qss ∧
      k'.journals = k₂.journals ∧ r.notices = k₂.journals.notices.drop k.journals.notices.length := by
  simp only [ofNotes, gives_bind, gives_pure, gives_liftM, gives_get, Editing.gives_note] at h
  obtain ⟨_, _, ⟨rfl, rfl⟩, anchors, _, ⟨ha, rfl⟩, ⟨pss, l⟩, k₁, hd, qss, k₂, hs, _, _, ⟨rfl, rfl⟩, _, _, rfl, rfl,
    rfl⟩ := h
  exact ⟨pss, l, k₁, qss, k₂, ha, hd, hs, (Note.draftAll_gives hd).1, rfl, rfl, rfl⟩

/-- **A resolution that succeeds is a walk through its notes, whose drafts are then settled.** -/
theorem ofNotes_gives {library : Library} {notes : List Note} {k k' : Desk} {r : Resolution}
    (h : Gives (ofNotes library notes) k r k') :
    ∃ ds l k₁ k₂, Walk library {} k (Note.allOccurrences notes) ds l k₁ ∧
      Gives (ds.mapM (Draft.settle l)) k₁ r.citations k₂ ∧
      k'.journals = k₂.journals ∧ r.notices = k₂.journals.notices.drop k.journals.notices.length := by
  obtain ⟨pss, l, k₁, qss, k₂, -, hd, hs, -, hsettled, hnoted⟩ := ofNotes_stages h
  obtain ⟨hl, hw⟩ := Note.draftAll_gives hd
  obtain ⟨hl', hg⟩ := Piece.settleNotes_gives hs
  exact ⟨_, l, k₁, k₂, hw, citations_of_settled hsettled (hl'.trans hl) ▸ hg, hnoted⟩

end Resolution

/-- **Working through a document** is to read it, and to resolve its notes after it has been noted how many they are. -/
theorem gives_process {library : Library} {offset : Int} {smallCaps : Bool} {t : Text} {k k' : Desk} {p : Processed} :
    Gives (process library offset smallCaps t) k p k' ↔ ∃ d r, Document.read offset t = .ok d ∧
      Gives (Resolution.ofNotes library d.notes) { k with log := k.log ++ [.foundNotes d.placed.length] } r k' ∧
      p = ⟨d, r, if smallCaps then (d.fill r.texts).smallCaps else d.fill r.texts⟩ := by
  simp only [process, gives_bind, gives_liftM, gives_pure, Editing.gives_note]
  constructor
  · rintro ⟨d, _, ⟨hd, rfl⟩, _, _, rfl, r, _, hr, rfl, rfl⟩
    exact ⟨d, r, hd, hr, rfl⟩
  · rintro ⟨d, r, hd, hr, rfl⟩
    exact ⟨d, k, ⟨hd, rfl⟩, (), _, rfl, r, k', hr, rfl, rfl⟩

end Footcite
