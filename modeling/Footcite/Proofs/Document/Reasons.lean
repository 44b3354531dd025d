import Footcite.Proofs.Document.FirstFault
import Footcite.Proofs.Ledger.Authors

/-!
# Why work on a document fails

Work on a document fails for one of three reasons (`Failure.Foreseen`): one that the user is told of, and that names no
numbers but those of notes; the number of a note that is too long to be written; or the edition of a source in the
library that is a run of digits and no numeral (`process_fails`). No other failure occurs. A source that is looked up has
a record, for the ledger keeps one for each source under an author. A form for cases is chosen for cases only, and a
citation points back to the number of a note (`Ledger.Choice.sound`), throughout a walk (`Walk.sound`). And what has been
drafted is settled (`Note.settles_of_draftAll`).
-/

namespace Footcite

open Editing

/-- **The failures that are foreseen** in work on a document, with the sources of the library and the numbers that notes
are displayed under. -/
inductive Failure.Foreseen (library : Library) (shown : Int → Prop) : Failure → Prop
  /-- The user is told, and of no numbers but those of notes. -/
  | told {e : Failure} : e.reported = true → (∀ n ∈ e.numbers, shown n) → Foreseen library shown e
  /-- The number of a note is too long to be written. -/
  | longNumber {n : Int} : shown n → Numeral.fits n = false → Foreseen library shown .longNumeral
  /-- The edition of a source cannot be read. -/
  | oddEdition {id : Text} {s : Source} : library.get? id = some s → s.OddEdition →
      Foreseen library shown .badNumeral

variable {library : Library} {shown : Int → Prop}

/-! ## Reasons that lie in a source -/

/-- A reason that lies in a source of the library is foreseen, once it is placed in a note. -/
theorem Source.Fault.foreseen {s : Source} {e : Failure} (h : s.Fault e) {id : Text} (hs : library.get? id = some s)
    {number : Int} (hn : shown number) : (e.inNote number).Foreseen library shown := by
  cases h with
  | missing | pincite => exact .told rfl (List.forall_mem_singleton.mpr hn)
  | edition hodd => exact .oddEdition hs hodd

/-- **A citation in a form that suits** fails for a foreseen reason, once it is placed in its note. -/
theorem Source.FaultIn.foreseen {s : Source} {form : Form} {e : Failure} (h : s.FaultIn form e) {id : Text}
    (hs : library.get? id = some s) (hform : form.Suits shown s) {number : Int} (hn : shown number) :
    (e.inNote number).Foreseen library shown := by
  cases h with
  | source hfault => exact hfault.foreseen hs hn
  | kind hcases hcase =>
    rw [hform.kind hcases] at hcase
    cases hcase
  | note hshort hlong => exact .longNumber (hform.number _ _ hshort) hlong

/-! ## The ledger and the drafts -/

/-- **What the ledger keeps throughout**: its sources stand under their authors, and its numbers are those of notes. -/
structure Ledger.Sound (library : Library) (shown : Int → Prop) (l : Ledger) : Prop where
  grouped : l.Grouped library
  numbers : ∀ id r, l.records.get? id = some r → shown r.firstNumber

namespace Ledger

variable {l l' : Ledger} {s : Source} {position number : Int} {pincite : Option Text} {opens : Bool} {form : Form}

theorem Sound.empty : Ledger.Sound library shown {} := ⟨.empty, fun _ _ hr => by cases hr⟩

theorem Sound.enterCitation (h : l.Sound library shown) (id : Text) (position : Int) (inString : Bool)
    (pincite : Option Text) : (l.enterCitation id position inString pincite).Sound library shown := by
  refine ⟨h.grouped.enterCitation _ _ _ _, fun i r hr => ?_⟩
  rw [get?_enterCitation] at hr
  split at hr
  · obtain ⟨r', hr', rfl⟩ := Option.map_eq_some_iff.mp hr
    exact h.numbers i r' hr'
  · exact h.numbers i r hr

/-- **A choice gives a form that suits**, and keeps the ledger sound. -/
theorem Choice.sound (hc : l.Choice s position number pincite opens form l') (h : l.Sound library shown)
    (hs : library.get? s.id = some s) (hn : shown number) : form.Suits shown s ∧ l'.Sound library shown := by
  have hgrouped := h.grouped.choice hs hc
  have hbegin : ∀ i r, (l.begin s.id position number).records.get? i = some r → shown r.firstNumber := by
    intro i r hr
    rw [get?_begin] at hr
    split at hr
    · cases hr
      exact hn
    · exact h.numbers i r hr
  have hplain {form : Form} (hshort : ∀ n flag, form ≠ .short n flag) (hcases : ¬form.ForCases) :
      form.Suits shown s := ⟨fun n flag hf => absurd hf (hshort n flag), fun hf => absurd hf hcases⟩
  cases hc with
  | again => exact ⟨hplain (by simp) (by simp [Form.ForCases]), h⟩
  | firstCase _ _ hcase => exact ⟨⟨fun _ _ hf => (by cases hf), fun _ => hcase⟩, hgrouped, hbegin⟩
  | firstUnauthored => exact ⟨hplain (by simp) (by simp [Form.ForCases]), hgrouped, hbegin⟩
  | first _ _ _ _ he =>
    refine ⟨hplain (by simp) (by simp [Form.ForCases]), hgrouped, fun i r hr => ?_⟩
    rw [(enterAuthor_ok he).2.2 i] at hr
    split at hr
    · obtain ⟨r', hr', rfl⟩ := Option.map_eq_some_iff.mp hr
      exact hbegin i r' hr'
    · exact hbegin i r hr
  | laterCase _ _ hcase => exact ⟨⟨fun _ _ hf => (by split at hf <;> cases hf), fun _ => hcase⟩, h⟩
  | later _ hr =>
    refine ⟨⟨fun n flag hf => ?_, fun hf => by rcases hf with hf | hf <;> cases hf⟩, h⟩
    cases hf
    exact h.numbers _ _ hr

end Ledger

/-! ## Walks -/

/-- Citing a mention keeps the ledger sound. -/
theorem Cites.sound (hl : library.Keyed) {l l' : Ledger} {k k' : Desk} {x : Site} {d : Draft}
    (hc : Cites library l k x d l' k') (h : l.Sound library shown) (hn : shown x.note.number) :
    l'.Sound library shown := by
  have hs := hc.source
  rw [← hl _ _ hs] at hs
  obtain ⟨opens, l₁, hchoose, rfl⟩ := hc.chosen
  exact ((Ledger.choice_of_choose hchoose).sound h hs hn).2.enterCitation _ _ _ _

/-- **A walk keeps the ledger sound.** -/
theorem Walk.sound (hl : library.Keyed) {l l' : Ledger} {k k' : Desk} {os : List Occurrence} {ds : List Draft}
    (hw : Walk library l k os ds l' k') (h : l.Sound library shown)
    (hn : ∀ x ∈ os.filterMap Occurrence.site?, shown x.note.number) : l'.Sound library shown := by
  induction hw with
  | done => exact h
  | cite hc _ ih =>
    obtain ⟨hx, hos⟩ := List.forall_mem_cons.mp hn
    exact ih (hc.sound hl h hx) hos
  | interrupt _ ih => exact ih ⟨⟨h.grouped.nodup, h.grouped.members, h.grouped.flags⟩, h.numbers⟩ hn

/-! ## The first walk -/

variable {anchors : Anchors} {n : Note} {l : Ledger}

theorem Draft.write_fails (hl : library.Keyed) (h : l.Sound library shown) (hn : shown n.number) (m : Mention)
    (parenthetical : Option Text) (before : List Segment) :
    FailsFor (Failure.Foreseen library shown) (Draft.write library n l m parenthetical before) := by
  unfold Draft.write
  cases hs : library.get? m.source with
  | none => exact .throw (.told rfl (List.forall_mem_singleton.mpr hn))
  | some s =>
    have hid : library.get? s.id = some s := (hl _ _ hs).symm ▸ hs
    have hclean : FailsFor s.Fault
        (MonadLiftT.monadLift (Pincite.clean s.id m.pincite) : Editing (Option Text)) :=
      .liftM fun _ he => s.clean_fault he
    refine (failsFor_inNote hclean fun e he => he.foreseen hs hn).bind fun pincite => ?_
    refine FailsFor.bind_gives (.liftM fun e he => absurd he (h.grouped.choose_ne_error e)) ?_
    rintro k ⟨form, l₁⟩ k₁ hchosen
    have hform := ((Ledger.choice_of_choose (gives_liftM.mp hchosen).1).sound h hid hn).1
    have hcite := s.cite_fails form pincite parenthetical
    refine (failsFor_inNote hcite fun e he => he.foreseen hs hform hn).bind fun _ => ?_
    exact (FailsFor.note _).bind fun _ => .pure _

/-- The names are bound to the numbers of notes. -/
def Anchors.Shown (shown : Int → Prop) (anchors : Anchors) : Prop := ∀ ref n, anchors.get? ref = some n → shown n

theorem Step.take_fails (hl : library.Keyed) (ha : anchors.Shown shown) (h : l.Sound library shown)
    (hn : shown n.number) (s : Step) : FailsFor (Failure.Foreseen library shown) (s.take library anchors n l) := by
  cases s with
  | text t => exact .pure _
  | cite m parenthetical before => exact (Draft.write_fails hl h hn m parenthetical before).bind fun _ => .pure _
  | interrupt => exact .pure _
  | use ref =>
    have hlookup (e : Failure) (he : anchors.lookup ref n.number = .error e) : e.Foreseen library shown := by
      unfold Anchors.lookup at he
      split at he
      · cases he
      · cases he
        exact .told rfl (List.forall_mem_singleton.mpr hn)
    refine (FailsFor.liftM hlookup).bind_gives fun {_ number _} hnumber => ?_
    have hshown := ha ref number (Anchors.lookup_eq_ok.mp (gives_liftM.mp hnumber).1)
    refine (FailsFor.liftM fun e he => ?_).bind fun _ => .pure _
    obtain ⟨rfl, hlong⟩ := Numeral.write_error he
    exact .longNumber hshown hlong

/-- An occurrence in a note is in this note. -/
theorem Step.site_note {s : Step} {x : Site} (h : x ∈ (s.occurrence? n).toList.filterMap Occurrence.site?) :
    x.note = n := by
  cases s with
  | cite m p before =>
    obtain rfl := List.mem_singleton.mp h
    rfl
  | text | interrupt | use => simp [Step.occurrence?, Occurrence.site?] at h

theorem Step.takeAll_fails (hl : library.Keyed) (ha : anchors.Shown shown) (hn : shown n.number) :
    ∀ (steps : List Step) {l : Ledger}, l.Sound library shown →
      FailsFor (Failure.Foreseen library shown) (Step.takeAll library anchors n l steps)
  | [], _, _ => .pure _
  | s :: steps, l, h => by
    refine (Step.take_fails hl ha h hn s).bind_gives ?_
    rintro k ⟨pieces, l₁⟩ k₁ hs
    have hl₁ := (Step.take_gives hs).sound hl h fun x hx => Step.site_note hx ▸ hn
    exact (Step.takeAll_fails hl ha hn steps hl₁).bind fun _ => .pure _

theorem Note.draftAll_fails (hl : library.Keyed) (ha : anchors.Shown shown) :
    ∀ {notes : List Note}, (∀ n ∈ notes, shown n.number) → ∀ {l : Ledger}, l.Sound library shown →
      FailsFor (Failure.Foreseen library shown) (Note.draftAll library anchors l notes)
  | [], _, _, _ => .pure _
  | n :: notes, hn, l, h => by
    obtain ⟨hfirst, hnotes⟩ := List.forall_mem_cons.mp hn
    refine (Step.takeAll_fails hl ha hfirst n.steps h).bind_gives ?_
    rintro k ⟨pieces, l₁⟩ k₁ hs
    have hwalk := Step.takeAll_gives hs
    rw [n.steps_occurrences] at hwalk
    have hl₁ := hwalk.sound hl h fun x hx => (Note.mem_sites hx).1 ▸ hfirst
    exact (Note.draftAll_fails hl ha hnotes hl₁).bind fun _ => .pure _

/-! ## The whole document -/

/-- Notes are resolved, or a foreseen failure occurs. -/
theorem Resolution.ofNotes_fails (hl : library.Keyed) {notes : List Note} (hs : ∀ n ∈ notes, n.SinglyAnchored)
    (hn : ∀ n ∈ notes, shown n.number) : FailsFor (Failure.Foreseen library shown) (ofNotes library notes) := by
  intro k e he
  rcases Anchors.ofNotes_cases hs with ⟨hbound, -⟩ | ⟨ref, first, again, hfirst, hbound⟩
  · rcases ofNotes_error hl he with he | ⟨crossrefs, hcrossrefs, he⟩
    · cases hbound.symm.trans he
    · obtain rfl := Except.ok.inj (hbound.symm.trans hcrossrefs)
      have hshown : Anchors.Shown shown (Anchors.entries notes) := by
        intro ref number hget
        obtain ⟨before, n, after, rfl, -, rfl⟩ := Anchors.get?_entries hs hget
        exact hn n (by simp)
      exact Note.draftAll_fails hl hshown hn .empty k e he
  · rcases ofNotes_error hl he with he | ⟨crossrefs, hcrossrefs, -⟩
    · obtain rfl := Except.error.inj (hbound.symm.trans he)
      obtain ⟨before, between, after, rfl, -⟩ := hfirst
      have hfirst : shown first.number := hn first (by simp)
      have hagain : shown again.number := hn again (by simp)
      exact .told rfl (List.forall_mem_cons.mpr ⟨hfirst, List.forall_mem_singleton.mpr hagain⟩)
    · cases hbound.symm.trans hcrossrefs

/-- The notes of a layout are read one by one. -/
theorem Document.ofLayout_length {offset : Int} : ∀ {layout : Layout} {position : Int} {d : Document},
    ofLayout offset position layout = .ok d → d.notes.length = layout.written.length
  | .prose _, _, _, h => by
    cases h
    rfl
  | .unclosed _ _, _, _, h => by cases h
  | .note _ _ rest, _, _, h => by
    obtain ⟨n, -, h⟩ := Except.bind_ok h
    obtain ⟨d, hd, he⟩ := Except.bind_ok h
    cases he
    exact congrArg (· + 1) (ofLayout_length hd)

/-- The numbers that the notes of a document are displayed under, closed or not. -/
def Text.ShowsNote (offset : Int) (t : Text) (n : Int) : Prop :=
  ∃ i < (Layout.ofText t).written.length, n = offset + (i + 1)

/-- The notes of a document have the numbers that are displayed, and are counted from one. -/
theorem Document.shows_note {offset : Int} {t : Text} {d : Document} (hd : Document.read offset t = .ok d) {n : Note}
    (hn : n ∈ d.notes) : t.ShowsNote offset n.number ∧ t.ShowsNote 0 n.position := by
  obtain ⟨i, hi⟩ := List.mem_iff_getElem?.mp hn
  obtain ⟨hposition, hnumber⟩ := Document.read_place hd hi
  have hlength := (List.getElem?_eq_some_iff.mp hi).1
  rw [Document.ofLayout_length hd] at hlength
  exact ⟨⟨i, hlength, by omega⟩, ⟨i, hlength, by omega⟩⟩

/-- **Work on a document fails for a foreseen reason.** -/
theorem process_fails (hl : library.Keyed) (offset : Int) (smallCaps : Bool) (t : Text) :
    FailsFor (Failure.Foreseen library (t.ShowsNote offset)) (process library offset smallCaps t) := by
  have hread : FailsFor (Failure.Foreseen library (t.ShowsNote offset))
      (MonadLiftT.monadLift (Document.read offset t) : Editing Document) := by
    refine .liftM fun e he => ?_
    obtain ⟨i, w, token, fault, hi, -, -, rfl⟩ := Document.ofLayout_broken he
    have hlength := (List.getElem?_eq_some_iff.mp hi).1
    exact .told rfl (List.forall_mem_singleton.mpr ⟨i, hlength, by omega⟩)
  unfold process
  refine hread.bind_gives fun {_ d _} hd => (FailsFor.note _).bind fun _ => ?_
  have hd := (gives_liftM.mp hd).1
  have hshown : ∀ n ∈ d.notes, t.ShowsNote offset n.number := fun n hn => (Document.shows_note hd hn).1
  exact (Resolution.ofNotes_fails hl (Document.singlyAnchored hd) hshown).bind fun _ => .pure _

end Footcite
