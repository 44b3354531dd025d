import Footcite.Proofs.Report.Ordered
import Footcite.Proofs.Resolution.CaseWindow
import Footcite.Proofs.Resolution.Crossrefs
import Footcite.Proofs.Resolution.FullThenShort
import Footcite.Report.Json

/-!
# A report agrees with the notes

A report has the citations of the resolution one for one, each with its decision (`Draft.ReportedAs`), and a table of
sources that is made from the list of citations alone. Each citation entered keeps what the entry of its source lists
(`Occurrences.Lists`): the number of the first citation, and the numbers of all without repetition. The citations are
those of the mentions in the order of reading, so the entry lists the notes that mention the source, and its first number
is the one that the short forms refer to (`Processed.report_agrees`).
-/

namespace Footcite

/-! ## Where a source is cited -/

/-- The displayed numbers of the citations of a source, one for each. -/
def Draft.numbersOf (id : Text) (ds : List Draft) : List Int := (ds.filter fun d => d.source.id = id).map Draft.number

namespace Occurrences

/-- Occurrences with a number more, unless it is there. -/
def noted (o : Occurrences) (number : Int) : Occurrences :=
  { o with notes := if o.notes.contains number then o.notes else o.notes ++ [number] }

/-- **The occurrences list numbers**: the first of them, and each of them once in their order. -/
structure Lists (o : Occurrences) (numbers : List Int) : Prop where
  first : numbers.head? = some o.first
  leads : o.notes.head? = some o.first
  sublist : o.notes.Sublist numbers
  nodup : o.notes.Nodup
  complete : ∀ number ∈ numbers, number ∈ o.notes

/-- A first number is listed. -/
theorem lists_noted (number : Int) : (noted ⟨number, []⟩ number).Lists [number] := by
  constructor <;> simp [noted]

namespace Lists

variable {o : Occurrences} {numbers : List Int}

/-- A number more is listed. -/
theorem noted (h : o.Lists numbers) (number : Int) : (o.noted number).Lists (numbers ++ [number]) := by
  have hfirst : (numbers ++ [number]).head? = some o.first := by rw [List.head?_append, h.first, Option.some_or]
  by_cases hmem : number ∈ o.notes
  · have hsame : o.noted number = o := by simp [Occurrences.noted, hmem]
    rw [hsame]
    refine ⟨hfirst, h.leads, h.sublist.trans (List.sublist_append_left _ _), h.nodup, ?_⟩
    intro n hn
    rcases List.mem_append.mp hn with hn | hn
    · exact h.complete n hn
    · rwa [List.mem_singleton.mp hn]
  · have hnotes : (o.noted number).notes = o.notes ++ [number] := by simp [Occurrences.noted, hmem]
    refine ⟨hfirst, ?_, ?_, ?_, ?_⟩
    · rw [hnotes, List.head?_append, h.leads, Option.some_or]
      rfl
    · rw [hnotes]
      exact h.sublist.append (List.Sublist.refl _)
    · rw [hnotes, List.nodup_append]
      refine ⟨h.nodup, by simp, ?_⟩
      rintro n hn m hm rfl
      exact hmem (List.mem_singleton.mp hm ▸ hn)
    · intro n hn
      rw [hnotes]
      rcases List.mem_append.mp hn with hn | hn
      · exact List.mem_append_left _ (h.complete n hn)
      · exact List.mem_append_right _ hn

/-- The list begins with the first number. -/
theorem exists_rest (h : o.Lists numbers) : ∃ rest, o.notes = o.first :: rest :=
  List.head?_eq_some_iff.mp h.leads

theorem ne_nil (h : o.Lists numbers) : numbers ≠ [] := by
  rintro rfl
  cases h.first

theorem mem_iff (h : o.Lists numbers) {number : Int} : number ∈ o.notes ↔ number ∈ numbers :=
  ⟨h.sublist.mem, h.complete number⟩

/-- Of numbers that do not fall an increasing list is made. -/
theorem increasing (h : o.Lists numbers) (hn : numbers.Pairwise (· ≤ ·)) : o.notes.Pairwise (· < ·) :=
  ((hn.sublist h.sublist).and h.nodup).imp fun ⟨hle, hne⟩ => Int.lt_iff_le_and_ne.mpr ⟨hle, hne⟩

end Lists

/-! ## The table of sources -/

/-- Entering a citation changes the entry of its source only. -/
theorem get?_enter (t : Table Occurrences) (d : Draft) (id : Text) : (enter t d).get? id =
    if d.source.id = id then some (((t.get? id).getD ⟨d.number, []⟩).noted d.number) else t.get? id := by
  rw [enter, Table.get?_set]
  by_cases hid : d.source.id = id
  · rw [if_pos hid, if_pos hid, hid]
    rfl
  · rw [if_neg hid, if_neg hid]

/-- **What the table of sources holds** after citations: nothing of a source that they do not cite, and of any other
source an entry that lists its numbers. -/
theorem get?_foldl_enter (ds : List Draft) (id : Text) :
    (Draft.numbersOf id ds = [] ∧ (ds.foldl enter []).get? id = none) ∨
      ∃ o, (ds.foldl enter []).get? id = some o ∧ o.Lists (Draft.numbersOf id ds) := by
  induction ds using List.reverseRecOn with
  | nil => exact .inl ⟨rfl, rfl⟩
  | append_singleton ds d ih =>
    have hnumbers : Draft.numbersOf id (ds ++ [d]) =
        Draft.numbersOf id ds ++ if d.source.id = id then [d.number] else [] := by
      by_cases hid : d.source.id = id <;> simp [Draft.numbersOf, hid]
    rw [List.foldl_append, List.foldl_cons, List.foldl_nil, get?_enter, hnumbers]
    by_cases hid : d.source.id = id
    · rw [if_pos hid, if_pos hid]
      rcases ih with ⟨hnil, hnone⟩ | ⟨o, ho, hlists⟩
      · rw [hnil, hnone]
        exact .inr ⟨_, rfl, lists_noted d.number⟩
      · rw [ho]
        exact .inr ⟨_, rfl, hlists.noted d.number⟩
    · rw [if_neg hid, if_neg hid, List.append_nil]
      exact ih

/-- An entry lists the numbers of the citations of its source. -/
theorem lists_of_get? {ds : List Draft} {id : Text} {o : Occurrences} (h : (ds.foldl enter []).get? id = some o) :
    o.Lists (Draft.numbersOf id ds) := by
  rcases get?_foldl_enter ds id with ⟨-, hnone⟩ | ⟨o', ho', hlists⟩
  · cases h.symm.trans hnone
  · rwa [Option.some.inj (h.symm.trans ho')]

/-- Each source has one entry. -/
theorem nodup_keys_foldl_enter (ds : List Draft) : (Table.keys (ds.foldl enter [])).Nodup := by
  induction ds using List.reverseRecOn with
  | nil => exact .nil
  | append_singleton ds d ih =>
    rw [List.foldl_append]
    exact Table.nodup_keys_set ih _ _

end Occurrences

/-! ## The notes that mention a source -/

namespace Note

/-- The note mentions the source, at whatever depth. -/
def Mentions (n : Note) (id : Text) : Prop := ∃ m ∈ n.mentions, m.source = id

/-- The notes that cite a source are those that mention it. -/
theorem mem_citingNotes_allSites {notes : List Note} {id : Text} {n : Note} :
    n ∈ citingNotes id (allSites notes) ↔ n ∈ notes ∧ n.Mentions id := by
  rw [mem_citingNotes]
  constructor
  · rintro ⟨x, hx, hid, rfl⟩
    obtain ⟨hn, hm⟩ := mem_allSites hx
    exact ⟨hn, x.mention, hm, hid⟩
  · rintro ⟨hn, m, hm, hid⟩
    have hsite : (n, m) ∈ n.sites.map fun x => (x.note, x.mention) := by
      rw [sites_mention]
      exact List.mem_map_of_mem hm
    obtain ⟨x, hx, hxm⟩ := List.mem_map.mp hsite
    obtain ⟨rfl, rfl⟩ := Prod.mk.inj hxm
    rw [allSites_eq]
    exact ⟨x, List.mem_flatMap.mpr ⟨x.note, hn, hx⟩, hid, rfl⟩

end Note

/-- The numbers of the notes that cite a source do not fall. -/
theorem Document.sorted_citingNotes {offset : Int} {t : Text} {d : Document} (hd : Document.read offset t = .ok d)
    (id : Text) : ((citingNotes id (Note.allSites d.notes)).map Note.number).Pairwise (· ≤ ·) := by
  have hnumber {x : Site} (hx : x ∈ (Note.allSites d.notes).filter fun x => x.mention.source = id) :
      x.note.number = x.note.position + offset := by
    obtain ⟨i, hi⟩ := List.mem_iff_getElem?.mp (Note.mem_allSites (List.mem_of_mem_filter hx)).1
    exact (Document.read_place hd hi).2
  have hsites := Note.allSites_sorted ((Document.sorted_positions hd).imp Int.le_of_lt)
  rw [citingNotes, List.map_map, List.pairwise_map]
  refine (hsites.filter _).imp_of_mem ?_
  intro x y hx hy hle
  rw [Function.comp_apply, Function.comp_apply, hnumber hx, hnumber hy]
  omega

/-- A short form refers to the first of the notes before it that cite its source. -/
theorem Draft.CitedFrom.note_of_short {library : Library} (hl : library.Keyed) {l : Ledger} {past : List Occurrence}
    {x : Site} {e : Draft} (h : e.CitedFrom library l x) (hf : l.Follows past) {note : Int} {flag : Bool}
    (hs : e.form = .short note flag) :
    ∃ n rest, citingNotes x.mention.source (past.filterMap Occurrence.site?) = n :: rest ∧ n.number = note := by
  have hcase : e.source.isCase = false := by
    by_contra hcase
    have hnone := h.form_of_case (Bool.not_eq_false _ ▸ hcase)
    rw [hs] at hnone
    cases hnone
  cases hnotes : citingNotes x.mention.source (past.filterMap Occurrence.site?) with
  | nil =>
    obtain ⟨flag', hfull⟩ := (h.form_of_first hl hf (citingNotes_eq_nil.mp hnotes)).2 hcase
    rw [hs] at hfull
    cases hfull
  | cons n rest =>
    refine ⟨n, rest, rfl, ?_⟩
    rcases h.form_of_later hl hf hcase hnotes with ⟨opens, repeated, hid⟩ | ⟨flag', hshort⟩
    · rw [hs] at hid
      cases hid
    · rw [hs] at hshort
      cases hshort
      rfl

namespace Resolution

variable {library : Library} {notes : List Note} {k k' : Desk} {r : Resolution}

/-- The citations of a source stand in the notes that cite it, one for each mention. -/
theorem numbersOf_citations (hl : library.Keyed) (hr : Gives (ofNotes library notes) k r k') (id : Text) :
    Draft.numbersOf id r.citations = (citingNotes id (Note.allSites notes)).map Note.number := by
  have hplaces : r.citations.map (fun e => (e.source.id, e.number)) =
      (Note.allSites notes).map fun x => (x.mention.source, x.note.number) := by
    apply List.ext_getElem?
    intro i
    rw [List.getElem?_map, List.getElem?_map]
    cases hx : (Note.allSites notes)[i]? with
    | none =>
      rw [List.getElem?_eq_none_iff, ← length_citations hr, ← List.getElem?_eq_none_iff] at hx
      rw [hx]
      rfl
    | some x =>
      obtain ⟨e, _, _, he, _, _, hc⟩ := citation_at hl hr hx
      rw [he, Option.map_some, Option.map_some, hl _ _ hc.source, hc.number]
  have hselected := congrArg (fun ps => (ps.filter fun p => p.1 = id).map Prod.snd) hplaces
  simpa [Draft.numbersOf, citingNotes, List.filter_map, Function.comp_def] using hselected

/-- **The occurrences of a source** list the numbers of the notes that cite it. -/
theorem get?_occurrences (hl : library.Keyed) (hr : Gives (ofNotes library notes) k r k') (id : Text) :
    (citingNotes id (Note.allSites notes) = [] ∧ r.occurrences.get? id = none) ∨
      ∃ o, r.occurrences.get? id = some o ∧
        o.Lists ((citingNotes id (Note.allSites notes)).map Note.number) := by
  have hentry := Occurrences.get?_foldl_enter r.citations id
  rw [numbersOf_citations hl hr, List.map_eq_nil_iff] at hentry
  exact hentry

/-- **A short form refers to the first occurrence of its source.** -/
theorem first_of_short (hl : library.Keyed) (hr : Gives (ofNotes library notes) k r k') {e : Draft}
    (he : e ∈ r.citations) {note : Int} {flag : Bool} (hs : e.form = .short note flag) :
    ∃ o, r.occurrences.get? e.source.id = some o ∧ o.first = note := by
  obtain ⟨i, x, l, past, -, hf, hp, hc⟩ := citation_of_mem hl hr he
  obtain ⟨n, rest, hnotes, rfl⟩ := hc.note_of_short hl hf hs
  -- The notes before the citation lead all that cite the source.
  have hall : ∃ rest', citingNotes e.source.id (Note.allSites notes) = n :: rest' := by
    rw [hp, ← hl _ _ hc.source] at hnotes
    refine ⟨rest ++ citingNotes e.source.id ((Note.allSites notes).drop i), ?_⟩
    rw [← List.cons_append, ← hnotes, ← citingNotes_append, List.take_append_drop]
  obtain ⟨rest', hall⟩ := hall
  rcases get?_occurrences hl hr e.source.id with ⟨hnil, _⟩ | ⟨o, ho, hlists⟩
  · rw [hnil] at hall
    cases hall
  · refine ⟨o, ho, ?_⟩
    have hfirst := hlists.first
    rw [hall] at hfirst
    exact (Option.some.inj hfirst).symm

end Resolution

/-! ## The parts of a report -/

/-- The member of an object under a name. -/
def Json.member? : Json → Text → Option Json
  | .object ms, name => Table.get? ms name
  | _, _ => none

/-- **A form is reported** with its kind and its particulars. -/
def Form.ReportedAs (v : Json) : Form → Prop
  | .full flag => v.member? "kind" = some (.string "full") ∧ v.member? "hereinafter" = some (.bool flag)
  | .short note flag => v.member? "kind" = some (.string "short") ∧ v.member? "note" = some (.int note) ∧
      v.member? "hereinafter" = some (.bool flag)
  | .id capitalized repeated => v.member? "kind" = some (.string "id") ∧
      v.member? "capitalized" = some (.bool capitalized) ∧ v.member? "pincite_repeated" = some (.bool repeated)
  | .shortCase => v.member? "kind" = some (.string "short_case")
  | .longCase => v.member? "kind" = some (.string "long_case")

/-- **A citation is reported** with its place, its source, its pincite, its form and its text. -/
structure Draft.ReportedAs (d : Draft) (c : Json) : Prop where
  number : c.member? "footnote" = some (.int d.number)
  position : c.member? "position" = some (.int d.position)
  source : c.member? "source_id" = some (.string d.source.id)
  pincite : c.member? "pincite" = some (d.pincite.elim .null .string)
  decision : ∃ v, c.member? "decision" = some v ∧ d.form.ReportedAs v
  text : c.member? "text" = some (.string d.text)

/-- **The parts of a report agree** with the resolution of the notes and with one another. -/
structure Report.Agrees (notes : List Note) (drafts : List Draft) (footnotes citations : List Json)
    (sources crossrefs : Table Json) : Prop where
  /-- The footnotes are the notes in their order. -/
  numbered : List.Forall₂ (fun n f => f.member? "footnote" = some (.int n.number)) notes footnotes
  /-- The citations are those of the resolution in their order, each with its decision. -/
  decided : List.Forall₂ Draft.ReportedAs drafts citations
  /-- The sources stand in the order of their ids. -/
  ascending : sources.Ascending
  /-- They are those that the notes mention. -/
  mentioned : ∀ id, id ∈ sources.keys ↔ ∃ n ∈ notes, n.Mentions id
  /-- They are those of the citations. -/
  cited : ∀ id, id ∈ sources.keys ↔ ∃ c ∈ citations, c.member? "source_id" = some (.string id)
  /-- A source has the increasing numbers of the notes that mention it, and the first of them by itself. -/
  occurrences : ∀ id v, (id, v) ∈ sources → ∃ first rest, v.member? "first_footnote" = some (.int first) ∧
    v.member? "footnotes" = some (.array ((first :: rest).map .int)) ∧ (first :: rest).Pairwise (· < ·) ∧
      ∀ number, number ∈ first :: rest ↔ ∃ n ∈ notes, n.Mentions id ∧ n.number = number
  /-- A citation that has the short form refers to the first number of its source. -/
  pointed : ∀ d ∈ drafts, ∀ note flag, d.form = .short note flag →
    ∃ v, (d.source.id, v) ∈ sources ∧ v.member? "first_footnote" = some (.int note)
  /-- A citation that is reported in the short form refers to the first number of its source. -/
  short : ∀ c ∈ citations, ∀ decision, c.member? "decision" = some decision →
    decision.member? "kind" = some (.string "short") → ∃ id v note, c.member? "source_id" = some (.string id) ∧
      (id, v) ∈ sources ∧ v.member? "first_footnote" = some note ∧ decision.member? "note" = some note
  /-- The cross-references stand in the order of their names. -/
  crossrefsAscending : crossrefs.Ascending
  /-- A name has the number of the note that is anchored under it. -/
  anchored : ∀ ref v, (ref, v) ∈ crossrefs ↔ ∃ n ∈ notes, n.AnchoredAs ref ∧ v = .int n.number
  /-- That number is one of those of the notes in the report. -/
  listed : ∀ ref v, (ref, v) ∈ crossrefs → ∃ f ∈ footnotes, f.member? "footnote" = some v

/-- The report of a form has its kind and its particulars. -/
theorem Form.reportedAs_report (f : Form) : f.ReportedAs f.report := by
  cases f with
  | short | id => exact ⟨rfl, rfl, rfl⟩
  | full => exact ⟨rfl, rfl⟩
  | shortCase | longCase => rfl

/-- The report of a citation has what it consists of. -/
theorem Draft.reportedAs_report (d : Draft) : d.ReportedAs d.report :=
  ⟨rfl, rfl, rfl, rfl, ⟨_, rfl, d.form.reportedAs_report⟩, rfl⟩

/-- Only the short form is reported as short. -/
theorem Form.eq_short_of_report {f : Form} (h : f.report.member? "kind" = some (.string "short")) :
    ∃ note flag, f = .short note flag ∧ f.report.member? "note" = some (.int note) := by
  have hkind : f.kind = "short".toList := Json.string.inj (Option.some.inj h)
  cases f with
  | short note flag => exact ⟨note, flag, rfl, rfl⟩
  | full flag => exact absurd hkind (show "full".toList ≠ "short".toList by decide)
  | id capitalized repeated => exact absurd hkind (show "id".toList ≠ "short".toList by decide)
  | shortCase => exact absurd hkind (show "short_case".toList ≠ "short".toList by decide)
  | longCase => exact absurd hkind (show "long_case".toList ≠ "short".toList by decide)

namespace Resolution

variable {library : Library} {notes : List Note} {k k' : Desk} {r : Resolution}

/-- The table of sources in the report. -/
def sources (r : Resolution) : Table Json := r.occurrences.sorted.mapValues Occurrences.report

theorem ascending_sources (r : Resolution) : r.sources.Ascending := by
  rw [sources, Table.Ascending, Table.keys_mapValues]
  exact Table.ascending_sorted (Occurrences.nodup_keys_foldl_enter r.citations)

theorem mem_sources {id : Text} {v : Json} :
    (id, v) ∈ r.sources ↔ ∃ o, r.occurrences.get? id = some o ∧ o.report = v := by
  rw [sources, Table.mem_mapValues]
  refine exists_congr fun o => and_congr_left fun _ => ?_
  rw [Table.mem_sorted]
  exact ⟨Table.get?_of_mem (Occurrences.nodup_keys_foldl_enter r.citations), Table.mem_of_get?⟩

/-- The table holds the sources that the citations give numbers to. -/
theorem mem_keys_sources {id : Text} : id ∈ r.sources.keys ↔ Draft.numbersOf id r.citations ≠ [] := by
  rw [sources, Table.keys_mapValues, Table.mem_keys_sorted, ← not_iff_not, not_not, ← Table.get?_eq_none_iff,
    occurrences]
  rcases Occurrences.get?_foldl_enter r.citations id with ⟨hnil, hnone⟩ | ⟨o, ho, hlists⟩
  · exact iff_of_true hnone hnil
  · rw [ho]
    exact iff_of_false (Option.some_ne_none o) hlists.ne_nil

/-- The sources of the report are those of the citations. -/
theorem mem_keys_sources_iff_cited {id : Text} : id ∈ r.sources.keys ↔ ∃ d ∈ r.citations, d.source.id = id := by
  rw [mem_keys_sources]
  simp [Draft.numbersOf]

/-- The sources of the report are those that the notes mention. -/
theorem mem_keys_sources_iff_mentioned (hl : library.Keyed) (hr : Gives (ofNotes library notes) k r k') {id : Text} :
    id ∈ r.sources.keys ↔ ∃ n ∈ notes, n.Mentions id := by
  rw [mem_keys_sources, numbersOf_citations hl hr, Ne, List.map_eq_nil_iff, List.eq_nil_iff_forall_not_mem,
    not_forall_not]
  exact exists_congr fun n => Note.mem_citingNotes_allSites

/-- **An entry of the table of sources** has the numbers of the notes that mention the source. -/
theorem numbers_of_mem_sources {offset : Int} {t : Text} {d : Document} (hd : Document.read offset t = .ok d)
    (hl : library.Keyed) (hr : Gives (ofNotes library d.notes) k r k') {id : Text} {v : Json}
    (hv : (id, v) ∈ r.sources) : ∃ first rest, v.member? "first_footnote" = some (.int first) ∧
      v.member? "footnotes" = some (.array ((first :: rest).map .int)) ∧ (first :: rest).Pairwise (· < ·) ∧
        ∀ number, number ∈ first :: rest ↔ ∃ n ∈ d.notes, n.Mentions id ∧ n.number = number := by
  obtain ⟨o, ho, rfl⟩ := mem_sources.mp hv
  have hlists := Occurrences.lists_of_get? ho
  rw [numbersOf_citations hl hr] at hlists
  obtain ⟨rest, hrest⟩ := hlists.exists_rest
  refine ⟨o.first, rest, rfl, ?_, ?_, ?_⟩
  · rw [← hrest]
    rfl
  · rw [← hrest]
    exact hlists.increasing (Document.sorted_citingNotes hd id)
  · intro number
    rw [← hrest, hlists.mem_iff, List.mem_map]
    apply exists_congr
    intro n
    rw [Note.mem_citingNotes_allSites, and_assoc]

/-! ## The table of cross-references -/

/-- The table of cross-references in the report. -/
def references (r : Resolution) : Table Json := r.crossrefs.sorted.mapValues .int

/-- The names of the anchored notes of a document are entered once, with their numbers. -/
theorem crossrefs_bound {offset : Int} {t : Text} {d : Document} (hd : Document.read offset t = .ok d)
    (hr : Gives (ofNotes library d.notes) k r k') : (Table.keys r.crossrefs).Nodup ∧
      ∀ ref number, r.crossrefs.get? ref = some number ↔ ∃ n ∈ d.notes, n.AnchoredAs ref ∧ n.number = number := by
  have hsingle := Document.singlyAnchored hd
  obtain ⟨hbound, -, -⟩ := settled_become hr
  rcases Anchors.ofNotes_cases hsingle with ⟨hentries, hapart⟩ | ⟨ref, first, again, -, herror⟩
  · rw [hentries, Except.ok.injEq] at hbound
    rw [← hbound]
    exact ⟨Anchors.nodup_keys_entries hsingle hapart, fun ref number => Anchors.get?_entries_iff hsingle hapart⟩
  · rw [herror] at hbound
    cases hbound

variable {offset : Int} {t : Text} {d : Document}

theorem ascending_references (hd : Document.read offset t = .ok d) (hr : Gives (ofNotes library d.notes) k r k') :
    r.references.Ascending := by
  rw [references, Table.Ascending, Table.keys_mapValues]
  exact Table.ascending_sorted (crossrefs_bound hd hr).1

/-- **A name is reported with the number** of the note that is anchored under it. -/
theorem mem_references (hd : Document.read offset t = .ok d) (hr : Gives (ofNotes library d.notes) k r k') {ref : Text}
    {v : Json} : (ref, v) ∈ r.references ↔ ∃ n ∈ d.notes, n.AnchoredAs ref ∧ v = .int n.number := by
  obtain ⟨hnodup, hanchored⟩ := crossrefs_bound hd hr
  rw [references, Table.mem_mapValues]
  constructor
  · rintro ⟨number, hmem, rfl⟩
    have hget := Table.get?_of_mem hnodup (Table.mem_sorted.mp hmem)
    obtain ⟨n, hn, hname, rfl⟩ := (hanchored ref number).mp hget
    exact ⟨n, hn, hname, rfl⟩
  · rintro ⟨n, hn, hname, rfl⟩
    have hget := (hanchored ref n.number).mpr ⟨n, hn, hname, rfl⟩
    exact ⟨n.number, Table.mem_sorted.mpr (Table.mem_of_get? hget), rfl⟩

end Resolution

/-- **The report of a document agrees with its resolution.** It has the citations in order, each with its decision, and
the sources that the notes mention, each with the numbers of the notes that do so; what its citations and
cross-references point to is among these numbers and those of its notes. -/
theorem Processed.report_agrees {library : Library} (hl : library.Keyed) {offset : Int} {smallCaps : Bool} {t : Text}
    {k k' : Desk} {p : Processed} (hp : Gives (process library offset smallCaps t) k p k')
    (document path : Option Text) (shown : Option Int) : Document.read offset t = .ok p.document ∧
      ∃ footnotes citations sources crossrefs,
        (p.resolution.report document path shown).member? "footnotes" = some (.array footnotes) ∧
        (p.resolution.report document path shown).member? "citations" = some (.array citations) ∧
        (p.resolution.report document path shown).member? "sources" = some (.object sources) ∧
        (p.resolution.report document path shown).member? "crossrefs" = some (.object crossrefs) ∧
        Report.Agrees p.document.notes p.resolution.citations footnotes citations sources crossrefs := by
  obtain ⟨d, r, hd, hr, rfl⟩ := gives_process.mp hp
  refine ⟨hd, r.settled.map SettledNote.report, r.citations.map Draft.report, r.sources, r.references,
    rfl, rfl, rfl, rfl, ?_⟩
  constructor
  case numbered =>
    obtain ⟨-, hnotes, -⟩ := Resolution.settled_become hr
    rw [← hnotes, List.forall₂_map_left_iff, List.forall₂_map_right_iff]
    exact List.forall₂_same.mpr fun n _ => rfl
  case decided =>
    rw [List.forall₂_map_right_iff]
    exact List.forall₂_same.mpr fun e _ => e.reportedAs_report
  case pointed =>
    intro e he note flag hform
    obtain ⟨o, ho, rfl⟩ := Resolution.first_of_short hl hr he hform
    exact ⟨o.report, Resolution.mem_sources.mpr ⟨o, ho, rfl⟩, rfl⟩
  case ascending => exact r.ascending_sources
  case mentioned =>
    intro id
    exact Resolution.mem_keys_sources_iff_mentioned hl hr
  case cited =>
    intro id
    rw [Resolution.mem_keys_sources_iff_cited]
    constructor
    · rintro ⟨e, he, rfl⟩
      exact ⟨e.report, List.mem_map_of_mem he, rfl⟩
    · rintro ⟨_, hc, hid⟩
      obtain ⟨e, he, rfl⟩ := List.mem_map.mp hc
      exact ⟨e, he, Json.string.inj (Option.some.inj hid)⟩
  case occurrences =>
    intro id v hv
    exact Resolution.numbers_of_mem_sources hd hl hr hv
  case short =>
    rintro _ hc _ hdecision hkind
    obtain ⟨e, he, rfl⟩ := List.mem_map.mp hc
    obtain rfl : e.form.report = _ := Option.some.inj hdecision
    obtain ⟨note, flag, hform, hnote⟩ := Form.eq_short_of_report hkind
    obtain ⟨o, ho, rfl⟩ := Resolution.first_of_short hl hr he hform
    exact ⟨e.source.id, o.report, .int o.first, rfl, Resolution.mem_sources.mpr ⟨o, ho, rfl⟩, rfl, hnote⟩
  case crossrefsAscending => exact Resolution.ascending_references hd hr
  case anchored =>
    intro ref v
    exact Resolution.mem_references hd hr
  case listed =>
    intro ref v hv
    obtain ⟨n, hn, -, rfl⟩ := (Resolution.mem_references hd hr).mp hv
    obtain ⟨-, hnotes, -⟩ := Resolution.settled_become hr
    rw [← hnotes] at hn
    obtain ⟨s, hs, rfl⟩ := List.mem_map.mp hn
    exact ⟨s.report, List.mem_map_of_mem hs, rfl⟩

/-- A book in the parenthetical of another, and again after a case: its second citation is reported in the short form,
for the note that the table of sources has first, and so is the name that this note is anchored under. -/
theorem Processed.report_agrees_nested : ∃ p k',
    Gives (process Library.small (-2) false "x^[[?k] See [@b] (citing [@a]).] y^[As in [?k], [@c].] z^[[@a].]")
      Desk.bare p k' ∧
    ∃ citations sources crossrefs c decision v,
      (p.resolution.report none none none).member? "citations" = some (.array citations) ∧
      (p.resolution.report none none none).member? "sources" = some (.object sources) ∧
      (p.resolution.report none none none).member? "crossrefs" = some (.object crossrefs) ∧
      citations[3]? = some c ∧ c.member? "decision" = some decision ∧
      decision.member? "kind" = some (.string "short") ∧ decision.member? "note" = some (.int (-1)) ∧
      ("a".toList, v) ∈ sources ∧ v.member? "first_footnote" = some (.int (-1)) ∧
      ("k".toList, .int (-1)) ∈ crossrefs := by
  obtain ⟨p, k', hp, hok⟩ := exists_gives_that (s := Desk.bare) (x := process Library.small (-2) false
      "x^[[?k] See [@b] (citing [@a]).] y^[As in [?k], [@c].] z^[[@a].]")
    (p := fun p => p.resolution.citations[3]?.any (fun e => e.source.id = "a".toList && e.form = .short (-1) true) &&
      p.document.notes[0]?.any fun n => n.AnchoredAs "k" && n.number = -1) (by decide +kernel)
  simp only [Bool.and_eq_true, Option.any_eq_true, decide_eq_true_eq] at hok
  obtain ⟨⟨e, he, hid, hform⟩, n, hn, hanchored, hnumber⟩ := hok
  obtain ⟨-, footnotes, citations, sources, crossrefs, -, hcitations, hsources, hcrossrefs, hagrees⟩ :=
    Processed.report_agrees Library.small_keyed hp none none none
  obtain ⟨hlt, hget⟩ := List.getElem?_eq_some_iff.mp he
  have hlt' : 3 < citations.length := hagrees.decided.length_eq ▸ hlt
  have hreported : e.ReportedAs citations[3] := hget ▸ hagrees.decided.get hlt hlt'
  obtain ⟨decision, hdecision, hkind⟩ := hreported.decision
  rw [hform] at hkind
  obtain ⟨v, hv, hfirst⟩ := hagrees.pointed e (List.mem_of_getElem? he) _ _ hform
  rw [hid] at hv
  exact ⟨p, k', hp, citations, sources, crossrefs, citations[3], decision, v, hcitations, hsources, hcrossrefs,
    List.getElem?_eq_getElem hlt', hdecision, hkind.1, hkind.2.1, hv, hfirst,
    (hagrees.anchored "k" (.int (-1))).mpr ⟨n, List.mem_of_getElem? hn, hanchored, by rw [hnumber]⟩⟩

end Footcite
