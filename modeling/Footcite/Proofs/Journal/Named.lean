import Footcite.Proofs.Journal.Notices
import Footcite.Proofs.Resolution.Steady
import Footcite.Proofs.Walk

/-!
# Journals that citations name by rule

A full citation of an article, and of a manuscript in a periodical, puts one question to the journals
(`Source.journal?`). Where the rules alone answer it, the citation shows the abbreviation by the rules, and the name has
been noted when the citation is written (`Draft.notedIn_of_cite`). This holds of every citation of notes that are
resolved, whether it was written in the first walk or anew in the second, and the notices of the resolution are those
that the journals have noted meanwhile (`Resolution.notedIn`).
-/

namespace Footcite

open Journals Editing

/-- The question that a full citation of the source puts to the journals, if it names a periodical. -/
def Source.journal? (s : Source) : Option Question :=
  match s.work with
  | .article a => (nonEmpty a.container).map fun name => ⟨name, a.containerShort⟩
  | .manuscript m => (nonEmpty m.container).map fun name => ⟨name, m.containerShort⟩
  | .book _ | .chapter _ | .case _ => none

/-- The name of the journal that the citation abbreviates by rule, its blanks collapsed. Only a full citation names a
journal. -/
def Draft.journalByRule? (user bundled : Table Text) (d : Draft) : Option Text :=
  match d.form with
  | .full _ => d.source.journal?.bind (leftToRules? user bundled)
  | _ => none

/-- **What the citation names by rule is among these names**: if it abbreviates the name of a journal by rule, the name is
one of them, and the citation shows the abbreviation. -/
def Draft.NotedIn (user bundled : Table Text) (names : List Text) (d : Draft) : Prop :=
  ∀ name, d.journalByRule? user bundled = some name →
    name ∈ names ∧ (Span.bold name.abbreviate).markdown <:+: d.text

variable {user bundled : Table Text} {names names' : List Text} {k k' : Desk}

/-- What is among some names is among more. -/
theorem Draft.NotedIn.mono {d : Draft} (h : d.NotedIn user bundled names) (hgrows : names <+: names') :
    d.NotedIn user bundled names' :=
  fun name hname => ⟨hgrows.subset (h name hname).1, (h name hname).2⟩

/-! ## Full citations -/

/-- An abbreviation is what the journals answer. -/
theorem Editing.gives_abbreviate {name t : Text} {short : Option Text} (h : Gives (Editing.abbreviate name short) k t k') :
    t = (k.journals.resolve name short).1.text ∧ k'.journals = (k.journals.resolve name short).2 := by
  simp only [Editing.abbreviate, gives_bind, gives_get, gives_set, gives_pure] at h
  obtain ⟨_, _, ⟨rfl, rfl⟩, _, _, rfl, rfl, rfl⟩ := h
  exact ⟨rfl, rfl⟩

namespace Source

variable {s : Source} {q : Question} {name : Text}

/-- A field that is there is the one that is asked for. -/
theorem field_of_given {f : Field} {t : Text} (h : s.given f = .ok t) : s.field f = some t := by
  unfold given at h
  split at h
  · split at h
    · cases h
    · cases h
      assumption
  · cases h

/-- The question of an article is about its periodical. -/
theorem journal_of_article {a : Article} (hw : s.work = .article a) (h : s.journal? = some q) :
    s.field .container = some q.name ∧ a.containerShort = q.override := by
  rw [journal?, hw] at h
  obtain ⟨container, hcontainer, rfl⟩ := Option.map_eq_some_iff.mp h
  rw [field, hw]
  exact ⟨(Option.filter_eq_some_iff.mp hcontainer).1, rfl⟩

/-- The question of a manuscript is about the periodical that it is in. -/
theorem journal_of_manuscript {m : Manuscript} (hw : s.work = .manuscript m) (h : s.journal? = some q) :
    nonEmpty m.container = some q.name ∧ s.field .container = some q.name ∧ m.containerShort = q.override := by
  rw [journal?, hw] at h
  obtain ⟨container, hcontainer, rfl⟩ := Option.map_eq_some_iff.mp h
  rw [field, hw]
  exact ⟨hcontainer, (Option.filter_eq_some_iff.mp hcontainer).1, rfl⟩

/-- A periodical that is left to the rules is named as they say, and noted. -/
theorem periodical_noted {spans : Styled} (hk : k.journals.Keeps user bundled names)
    (hname : leftToRules? user bundled q = some name) (hfield : s.field .container = some q.name)
    (h : Gives (s.periodical q.override) k spans k') :
    spans = Styled.bold name.abbreviate ∧ k'.journals.Keeps user bundled (names ++ [name]) := by
  simp only [periodical, gives_bind, gives_liftM, gives_pure] at h
  obtain ⟨container, _, ⟨hcontainer, rfl⟩, t, k₁, ht, rfl, rfl⟩ := h
  cases hfield.symm.trans (field_of_given hcontainer)
  obtain ⟨rfl, hjournals⟩ := gives_abbreviate ht
  have hkeeps := hk.resolve q
  rw [← hjournals, hname] at hkeeps
  exact ⟨by rw [hk.resolve_text hname], hkeeps⟩

/-- The parts of the full citation of an article name its periodical. -/
theorem fullArticle_noted {a : Article} {parts : FullParts} (hk : k.journals.Keeps user bundled names)
    (hq : s.journal? = some q) (hname : leftToRules? user bundled q = some name) (hw : s.work = .article a)
    (h : Gives (s.fullArticle a) k parts k') :
    Span.bold name.abbreviate ∈ parts.before ∧ k'.journals.Keeps user bundled (names ++ [name]) := by
  obtain ⟨hfield, hshort⟩ := journal_of_article hw hq
  simp only [fullArticle, gives_bind, gives_liftM, hshort] at h
  obtain ⟨title, _, ⟨-, rfl⟩, page, _, ⟨-, rfl⟩, journal, k₁, hjournal, h⟩ := h
  obtain ⟨rfl, hkeeps⟩ := periodical_noted hk hname hfield hjournal
  have hbold : Span.bold name.abbreviate ∈ Styled.bold name.abbreviate := List.mem_singleton_self _
  split at h
  · simp only [gives_bind, gives_liftM, gives_pure] at h
    obtain ⟨volume, _, ⟨-, rfl⟩, rfl, rfl⟩ := h
    exact ⟨List.mem_append_left _ (List.mem_append_right _ hbold), hkeeps⟩
  · rw [gives_pure] at h
    obtain ⟨rfl, rfl⟩ := h
    exact ⟨List.mem_append_left _ (List.mem_append_right _ hbold), hkeeps⟩

/-- The parts of the full citation of a manuscript name its periodical. -/
theorem fullManuscript_noted {m : Manuscript} {parts : FullParts} (hk : k.journals.Keeps user bundled names)
    (hq : s.journal? = some q) (hname : leftToRules? user bundled q = some name) (hw : s.work = .manuscript m)
    (h : Gives (s.fullManuscript m) k parts k') :
    Span.bold name.abbreviate ∈ parts.before ∧ k'.journals.Keeps user bundled (names ++ [name]) := by
  obtain ⟨hcontainer, hfield, hshort⟩ := journal_of_manuscript hw hq
  simp only [fullManuscript, gives_bind, gives_liftM, gives_pure, hcontainer, hshort] at h
  obtain ⟨title, _, ⟨-, rfl⟩, journal, k₁, hjournal, _, _, ⟨rfl, rfl⟩, h⟩ := h
  obtain ⟨rfl, hkeeps⟩ := periodical_noted hk hname hfield hjournal
  have hplace : Span.bold name.abbreviate ∈ Styled.plain ", " ++ s.volumeLead ++ Styled.bold name.abbreviate :=
    List.mem_append_right _ (List.mem_singleton_self _)
  split at h
  all_goals
    rw [gives_pure] at h
    obtain ⟨rfl, rfl⟩ := h
    exact ⟨List.mem_append_left _ (List.mem_append_right _ hplace), hkeeps⟩

/-- A full citation begins with what comes before the pincite. -/
theorem putTogether_gives {flag : Bool} {pin : Option Text} {parts : FullParts} {spans : Styled}
    (h : Gives (s.putTogether flag pin parts) k spans k') : ∃ rest, parts.before ++ rest = spans := by
  unfold putTogether at h
  cases flag with
  | true =>
    simp only [if_true, gives_bind, gives_pure] at h
    obtain ⟨_, _, -, rfl, -⟩ := h
    exact ⟨_, by rw [List.append_assoc, List.append_assoc]⟩
  | false =>
    simp only [Bool.false_eq_true, if_false, pure_bind, gives_pure] at h
    obtain ⟨rfl, -⟩ := h
    exact ⟨_, by rw [List.append_assoc, List.append_assoc]⟩

/-- **A full citation names the periodical by rule, and the name has been noted.** -/
theorem full_noted {flag : Bool} {pin : Option Text} {spans : Styled} (hk : k.journals.Keeps user bundled names)
    (hq : s.journal? = some q) (hname : leftToRules? user bundled q = some name)
    (h : Gives (s.full flag pin) k spans k') :
    Span.bold name.abbreviate ∈ spans ∧ byRule name ∈ k'.journals.notices := by
  obtain ⟨parts, k₁, hbold, hkeeps, hput⟩ : ∃ parts k₁, Span.bold name.abbreviate ∈ parts.before ∧
      k₁.journals.Keeps user bundled (names ++ [name]) ∧ Gives (s.putTogether flag pin parts) k₁ spans k' := by
    unfold full at h
    cases hw : s.work with
    | article a =>
      simp only [hw, gives_bind] at h
      obtain ⟨parts, k₁, hparts, hput⟩ := h
      obtain ⟨hbold, hkeeps⟩ := fullArticle_noted hk hq hname hw hparts
      exact ⟨parts, k₁, hbold, hkeeps, hput⟩
    | manuscript m =>
      simp only [hw, gives_bind] at h
      obtain ⟨parts, k₁, hparts, hput⟩ := h
      obtain ⟨hbold, hkeeps⟩ := fullManuscript_noted hk hq hname hw hparts
      exact ⟨parts, k₁, hbold, hkeeps, hput⟩
    | book | chapter | case => simp [journal?, hw] at hq
  -- What comes after the parts is a short name at most: it cannot lose what has been noted.
  obtain ⟨names', hgrows, hk'⟩ := (s.putTogether_asking flag pin parts).keeping.gives hput hkeeps
  have hmem : name ∈ names' := hgrows.subset (List.mem_append_right names (List.mem_singleton_self name))
  refine ⟨?_, hk'.mem_notices.mpr hmem⟩
  obtain ⟨rest, rfl⟩ := putTogether_gives hput
  exact List.mem_append_left rest hbold

end Source

/-! ## Citations of notes -/

namespace Draft

/-- **When a citation has been written, what it names by rule has been noted.** -/
theorem notedIn_of_cite {d : Draft} (hk : k.journals.Keeps user bundled names)
    (h : Gives (d.source.cite d.form d.pincite d.parenthetical) k d.text k') :
    ∃ names', names <+: names' ∧ k'.journals.Keeps user bundled names' ∧ d.NotedIn user bundled names' := by
  -- The names are those of the desk that is left; that the one in question is among them shows in its notices.
  obtain ⟨names', hgrows, hk'⟩ := (d.source.cite_asking _ _ _).keeping.gives h hk
  refine ⟨names', hgrows, hk', fun name hname => ?_⟩
  obtain ⟨pin, spans, -, hspans, htext⟩ := Source.gives_cite.mp h
  unfold journalByRule? at hname
  split at hname
  · next flag hform =>
    obtain ⟨q, hq, hname⟩ := Option.bind_eq_some_iff.mp hname
    rw [hform] at hspans
    obtain ⟨hbold, hnoted⟩ := Source.full_noted hk hq hname hspans
    refine ⟨hk'.mem_notices.mp hnoted, ?_⟩
    rw [htext, Styled.markdown, List.flatMap_def]
    exact List.infix_of_mem_flatten (List.mem_map_of_mem (List.mem_append_left _ hbold))
  · cases hname

/-- What a settled citation names by rule has been noted, if it was before. -/
theorem NotedIn.settle {l : Ledger} {d e : Draft} (hd : d.NotedIn user bundled names)
    (hk : k.journals.Keeps user bundled names) (h : Gives (d.settle l) k e k') :
    ∃ names', names <+: names' ∧ k'.journals.Keeps user bundled names' ∧ e.NotedIn user bundled names' := by
  obtain ⟨-, hsame | hwritten⟩ := settle_gives h
  · obtain ⟨rfl, rfl⟩ := hsame
    exact ⟨names, List.prefix_rfl, hk, hd⟩
  · -- It was written anew, perhaps with a short name, and the journals answer from memory.
    exact notedIn_of_cite hk hwritten

/-- When citations have been settled one after another, what they name by rule has been noted. -/
theorem notedIn_of_settleAll {l : Ledger} : ∀ {ds es : List Draft} {names : List Text} {k k' : Desk},
    k.journals.Keeps user bundled names → (∀ d ∈ ds, d.NotedIn user bundled names) →
    Gives (ds.mapM (settle l)) k es k' →
      ∃ names', names <+: names' ∧ k'.journals.Keeps user bundled names' ∧ ∀ e ∈ es, e.NotedIn user bundled names'
  | [], _, names, _, _, hk, _, h => by
    rw [List.mapM_nil, gives_pure] at h
    obtain ⟨rfl, rfl⟩ := h
    exact ⟨names, List.prefix_rfl, hk, by simp⟩
  | d :: ds, _, _, _, _, hk, hds, h => by
    simp only [List.mapM_cons, gives_bind, gives_pure] at h
    obtain ⟨e, k₁, hd, es, _, hrest, rfl, rfl⟩ := h
    obtain ⟨hnoted, hds⟩ := List.forall_mem_cons.mp hds
    obtain ⟨names₁, hgrows, hk₁, he⟩ := hnoted.settle hk hd
    obtain ⟨names', hgrows', hk', hes⟩ := notedIn_of_settleAll hk₁ (fun d hd => (hds d hd).mono hgrows) hrest
    exact ⟨names', hgrows.trans hgrows', hk', List.forall_mem_cons.mpr ⟨he.mono hgrows', hes⟩⟩

end Draft

/-- After a walk, what its drafts name by rule has been noted. -/
theorem Walk.notedIn {library : Library} {l l' : Ledger} {os : List Occurrence} {ds : List Draft}
    (hw : Walk library l k os ds l' k') : ∀ {names : List Text}, k.journals.Keeps user bundled names →
      ∃ names', names <+: names' ∧ k'.journals.Keeps user bundled names' ∧ ∀ d ∈ ds, d.NotedIn user bundled names' := by
  induction hw with
  | done =>
    intro names hk
    exact ⟨names, List.prefix_rfl, hk, by simp⟩
  | cite hc _ ih =>
    intro names hk
    obtain ⟨k₁, hwritten, rfl⟩ := hc.written
    obtain ⟨names₁, hgrows, hk₁, hd⟩ := Draft.notedIn_of_cite hk hwritten
    obtain ⟨names', hgrows', hk', hds⟩ := ih hk₁
    exact ⟨names', hgrows.trans hgrows', hk', List.forall_mem_cons.mpr ⟨hd.mono hgrows', hds⟩⟩
  | interrupt _ ih => exact ih

/-! ## Documents -/

namespace Resolution

/-- Resolving notes keeps what the journals have noted, also when it fails. -/
theorem ofNotes_keeping (library : Library) (notes : List Note) : Keeping user bundled (ofNotes library notes) :=
  Keeping.get.bind fun _ => (Keeping.liftM _).bind fun crossrefs =>
    (Asking.keeping (Note.draftAll_asking library crossrefs {} fun _ _ => trivial)).bind fun (pieces, l) =>
      (Piece.settleNotes_asking l pieces).keeping.bind fun _ => Keeping.get.bind fun _ =>
        (Keeping.note _).bind fun _ => .pure _

/-- **When notes have been resolved, what their citations name by rule has been noted**, and the notices of the resolution
are what is new. -/
theorem notedIn {library : Library} {notes : List Note} {r : Resolution} (hk : k.journals.Keeps user bundled names)
    (h : Gives (ofNotes library notes) k r k') :
    ∃ names', names <+: names' ∧ k'.journals.Keeps user bundled names' ∧
      (∀ e ∈ r.citations, e.NotedIn user bundled names') ∧
      r.notices = k'.journals.notices.drop k.journals.notices.length := by
  obtain ⟨ds, l, k₁, k₂, hw, hs, hjournals, hnotices⟩ := ofNotes_gives h
  obtain ⟨names₁, hgrows, hk₁, hds⟩ := hw.notedIn hk
  obtain ⟨names', hgrows', hk₂, hes⟩ := Draft.notedIn_of_settleAll hk₁ hds hs
  rw [hjournals]
  exact ⟨names', hgrows.trans hgrows', hk₂, hes, hnotices⟩

end Resolution

/-- Working through a document keeps what the journals have noted, also when it fails. -/
theorem process_keeping (library : Library) (offset : Int) (smallCaps : Bool) (t : Text) :
    Keeping user bundled (process library offset smallCaps t) :=
  (Keeping.liftM _).bind fun document => (Keeping.note _).bind fun _ =>
    (Resolution.ofNotes_keeping library document.notes).bind fun _ => .pure _

/-- **When a document has been worked through, what its citations name by rule has been noted**, and its notices are what
is new. -/
theorem process_notedIn {library : Library} {offset : Int} {smallCaps : Bool} {t : Text} {p : Processed}
    (hk : k.journals.Keeps user bundled names) (h : Gives (process library offset smallCaps t) k p k') :
    ∃ names', names <+: names' ∧ k'.journals.Keeps user bundled names' ∧
      (∀ e ∈ p.resolution.citations, e.NotedIn user bundled names') ∧
      p.resolution.notices = k'.journals.notices.drop k.journals.notices.length := by
  obtain ⟨document, r, -, hr, rfl⟩ := gives_process.mp h
  have hk' : ({ k with log := k.log ++ [.foundNotes document.placed.length] } : Desk).journals.Keeps user bundled names :=
    hk
  obtain ⟨names', hnoted⟩ := Resolution.notedIn hk' hr
  exact ⟨names', hnoted⟩

end Footcite
