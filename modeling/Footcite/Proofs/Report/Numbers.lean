import Footcite.Proofs.Document.Reasons
import Footcite.Proofs.Json.Written
import Footcite.Proofs.Report.Agrees
import Footcite.Proofs.Resolution.Steady
import Footcite.Report.Summary

/-!
# The numbers that are written

What is said of a document names no numbers but the displayed numbers of its notes, their positions, and the offset: so do
the log (`process_keeps_log`), the summary (`Resolution.summary_error`) and the report (`Processed.report_writable`).
Hence when one of them cannot be written, one of these numbers is too long.
-/

namespace Footcite

/-! ## In the log -/

/-- Notes are resolved, and the log names no others. -/
theorem Resolution.ofNotes_keeps_log {shown : Int → Prop} (library : Library) {notes : List Note}
    (hn : ∀ n ∈ notes, shown n.number) : Keeps (Editing.Logs shown) (ofNotes library notes) := by
  refine .get_bind fun _ _ => (Keeps.liftM _).bind fun crossrefs => ?_
  refine (Note.draftAll_asking library crossrefs {} hn).keeps.bind fun (pieces, l) => ?_
  refine (Piece.settleNotes_asking l pieces).keeps.bind fun _ => .get_bind fun _ _ => ?_
  exact (Editing.note_keeps (.settled _ _) trivial).bind fun _ => .pure _

/-- **The log of work on a document** names no notes but those that are displayed. -/
theorem process_keeps_log (library : Library) (offset : Int) (smallCaps : Bool) (t : Text) :
    Keeps (Editing.Logs (t.ShowsNote offset)) (process library offset smallCaps t) := by
  refine (Keeps.liftM _).bind_gives fun _ hd => (Editing.note_keeps (.foundNotes _) trivial).bind fun _ => ?_
  have hd := (gives_liftM.mp hd).1
  exact (Resolution.ofNotes_keeps_log library fun n hn => (Document.shows_note hd hn).1).bind fun _ => .pure _

/-! ## In the resolution -/

namespace Processed

variable {library : Library} {offset : Int} {smallCaps : Bool} {t : Text} {k k' : Desk} {p : Processed}

/-- What comes of a document is read and resolved. -/
theorem resolved (hp : Gives (process library offset smallCaps t) k p k') :
    Document.read offset t = .ok p.document ∧
      ∃ k₁ k₂, Gives (Resolution.ofNotes library p.document.notes) k₁ p.resolution k₂ := by
  obtain ⟨d, r, hd, hr, rfl⟩ := gives_process.mp hp
  exact ⟨hd, _, _, hr⟩

/-- A citation has the number and the position of a note, and so has the short form in it. -/
theorem shows_citation (hl : library.Keyed) (hp : Gives (process library offset smallCaps t) k p k') {e : Draft}
    (he : e ∈ p.resolution.citations) : t.ShowsNote offset e.number ∧ t.ShowsNote 0 e.position ∧
      ∀ note flag, e.form = .short note flag → t.ShowsNote offset note := by
  obtain ⟨hd, k₁, k₂, hr⟩ := resolved hp
  obtain ⟨i, x, l, past, hx, hf, hpast, hc⟩ := Resolution.citation_of_mem hl hr he
  obtain ⟨hnumber, hposition⟩ := Document.shows_note hd (Note.mem_allSites (List.mem_of_getElem? hx)).1
  refine ⟨hc.number ▸ hnumber, hc.position ▸ hposition, fun note flag hform => ?_⟩
  obtain ⟨n, rest, hnotes, rfl⟩ := hc.note_of_short hl hf hform
  have hn : n ∈ citingNotes x.mention.source (Note.allSites p.document.notes) := by
    rw [← List.take_append_drop i (Note.allSites p.document.notes), citingNotes_append, ← hpast, hnotes]
    exact List.mem_append_left _ List.mem_cons_self
  exact (Document.shows_note hd (Note.mem_citingNotes_allSites.mp hn).1).1

/-- The table of sources has the numbers of notes. -/
theorem shows_occurrences (hl : library.Keyed) (hp : Gives (process library offset smallCaps t) k p k') {id : Text}
    {o : Occurrences} (ho : p.resolution.occurrences.get? id = some o) :
    t.ShowsNote offset o.first ∧ ∀ n ∈ o.notes, t.ShowsNote offset n := by
  have hlists := Occurrences.lists_of_get? ho
  have hshown : ∀ n ∈ o.notes, t.ShowsNote offset n := by
    intro n hn
    obtain ⟨e, he, rfl⟩ := List.mem_map.mp (hlists.mem_iff.mp hn)
    exact (shows_citation hl hp (List.mem_of_mem_filter he)).1
  exact ⟨hshown _ (List.mem_of_mem_head? hlists.leads), hshown⟩

end Processed

/-! ## In the summary -/

namespace Resolution

variable {r : Resolution} {f : Failure}

/-- **A summary that cannot be written** names a citation in a note whose number is too long. -/
theorem summary_error (h : r.summary = .error f) :
    f = .longNumeral ∧ ∃ d ∈ r.citations, Numeral.fits d.number = false := by
  rcases Except.bind_error h with h | ⟨_, -, h⟩
  · obtain ⟨d, hd, h⟩ := Except.mapM_error h
    rcases Except.bind_error h with h | ⟨_, -, h⟩
    · exact ⟨(Numeral.write_error h).1, d, hd, (Numeral.write_error h).2⟩
    · cases h
  · cases h

theorem summaryDisplays_error (h : r.summaryDisplays = .error f) :
    f = .longNumeral ∧ ∃ d ∈ r.citations, Numeral.fits d.number = false := by
  rcases Except.bind_error h with h | ⟨_, -, h⟩
  · rcases Except.bind_error h with h | ⟨_, -, h⟩
    · obtain ⟨d, hd, h⟩ := Except.mapM_error h
      rcases Except.bind_error h with h | ⟨_, -, h⟩
      · exact ⟨(Numeral.write_error h).1, d, hd, (Numeral.write_error h).2⟩
      · cases h
    · cases h
  · cases h

end Resolution

/-! ## In the report -/

theorem Json.writable_ofText? (t : Option Text) : (ofText? t).writable = true := by
  cases t <;> simp [ofText?, writable]

open Json (writable_array writable_object writable_ofText?)

theorem Form.writable_report {f : Form} (h : ∀ note flag, f = .short note flag → Numeral.fits note = true) :
    f.report.writable = true := by
  cases f with
  | short note flag => simp [report, Json.writable, Json.writableMembers, h note flag rfl]
  | full | id | shortCase | longCase => simp [report, Json.writable, Json.writableMembers]

theorem Draft.writable_report {d : Draft} (hnumber : Numeral.fits d.number = true)
    (hposition : Numeral.fits d.position = true)
    (hform : ∀ note flag, d.form = .short note flag → Numeral.fits note = true) : d.report.writable = true := by
  simp [report, Json.writable, Json.writableMembers, writable_ofText?, Form.writable_report hform, hnumber, hposition]

theorem Occurrences.writable_report {o : Occurrences} (hfirst : Numeral.fits o.first = true)
    (hnotes : ∀ n ∈ o.notes, Numeral.fits n = true) : o.report.writable = true := by
  have harray : (Json.array (o.notes.map .int)).writable = true := by
    rw [writable_array]
    intro v hv
    obtain ⟨n, hn, rfl⟩ := List.mem_map.mp hv
    rw [Json.writable]
    exact hnotes n hn
  simp only [report, Json.writable, Json.writableMembers] at harray ⊢
  simp [harray, hfirst]

/-- **A report can be written** unless a note has a number or a position that is too long, or the offset is. -/
theorem Processed.report_writable {library : Library} (hl : library.Keyed) {offset : Int} {smallCaps : Bool} {t : Text}
    {k k' : Desk} {p : Processed} (hp : Gives (process library offset smallCaps t) k p k')
    (document path : Option Text) {given : Option Int} (hgiven : ∀ n ∈ given, Numeral.fits n = true)
    (hcounted : ∀ n, t.ShowsNote 0 n → Numeral.fits n = true)
    (hshown : ∀ n, t.ShowsNote offset n → Numeral.fits n = true) :
    (p.resolution.report document path given).writable = true := by
  obtain ⟨hd, k₁, k₂, hr⟩ := resolved hp
  have hfootnotes : (Json.array (p.resolution.settled.map SettledNote.report)).writable = true := by
    rw [writable_array]
    intro v hv
    obtain ⟨n, hn, rfl⟩ := List.mem_map.mp hv
    have hnote : n.note ∈ p.document.notes := by
      rw [← (Resolution.settled_become hr).2.1]
      exact List.mem_map_of_mem hn
    obtain ⟨hnumber, hposition⟩ := Document.shows_note hd hnote
    simp [SettledNote.report, Json.writable, Json.writableMembers, hshown _ hnumber, hcounted _ hposition]
  have hcitations : (Json.array (p.resolution.citations.map Draft.report)).writable = true := by
    rw [writable_array]
    intro v hv
    obtain ⟨e, he, rfl⟩ := List.mem_map.mp hv
    obtain ⟨hnumber, hposition, hshort⟩ := shows_citation hl hp he
    exact Draft.writable_report (hshown _ hnumber) (hcounted _ hposition) fun n flag hf => hshown n (hshort n flag hf)
  have hsources : (Json.object p.resolution.sources).writable = true := by
    rw [writable_object]
    intro id v hv
    obtain ⟨o, ho, rfl⟩ := Resolution.mem_sources.mp hv
    obtain ⟨hfirst, hnotes⟩ := shows_occurrences hl hp ho
    exact Occurrences.writable_report (hshown _ hfirst) fun n hn => hshown n (hnotes n hn)
  have hcrossrefs : (Json.object p.resolution.references).writable = true := by
    rw [writable_object]
    intro ref v hv
    obtain ⟨n, hn, -, rfl⟩ := (Resolution.mem_references hd hr).mp hv
    rw [Json.writable]
    exact hshown _ (Document.shows_note hd hn).1
  have hnotices (notices : List Notice) : (Json.array (notices.map Notice.report)).writable = true := by
    rw [writable_array]
    intro v hv
    obtain ⟨n, -, rfl⟩ := List.mem_map.mp hv
    simp [Notice.report, Json.writable, Json.writableMembers]
  have hoffset : (given.elim (.array []) Json.int).writable = true := by
    cases given with
    | none => simp [Json.writable, Json.writableItems]
    | some n => simpa [Json.writable] using hgiven n rfl
  have hinput : (Json.object [("document", Json.ofText? document), ("library", Json.ofText? path),
      ("offset", given.elim (.array []) .int)]).writable = true := by
    simp [writable_object, or_imp, forall_and, writable_ofText?, hoffset]
  unfold Resolution.report
  rw [writable_object]
  simp only [List.mem_cons, List.not_mem_nil, or_false, Prod.mk.injEq]
  rintro key v (⟨-, rfl⟩ | ⟨-, rfl⟩ | ⟨-, rfl⟩ | ⟨-, rfl⟩ | ⟨-, rfl⟩ | ⟨-, rfl⟩ | ⟨-, rfl⟩)
  · rw [Json.writable]
  · exact hinput
  · exact hfootnotes
  · exact hcitations
  · exact hsources
  · exact hcrossrefs
  · exact hnotices _

end Footcite
