import Footcite.Proofs.Resolution.SecondWalk

/-!
# The first fault of a document

Three kinds of faults are told apart, and they rank in this order. A note is broken when it is never closed or one of its
tokens is malformed, at whatever depth (`WrittenNote.Broken`); a note may be anchored under a name that is taken; and a
segment may be at fault. The first fault of a document (`FirstFault`) is that of its earliest broken note; if no note is
broken, the earliest rebinding of an anchor; and if there is none, the first segment at fault in reading order.

When work on a document fails for a reason that lies in a note, this is the first fault, and the failure names the note
that holds it; and no document with a fault is worked through (`process_first_fault`).
-/

namespace Footcite

/-! ## Notes as they are written -/

/-- A note as it is written: its body, or the text from its caret on if it is never closed. -/
inductive WrittenNote
  | closed (body : Text)
  | unclosed (opened : Text)

/-- The notes of a layout in order. -/
def Layout.written : Layout → List WrittenNote
  | prose _ => []
  | unclosed _ opened => [.unclosed opened]
  | note _ body rest => .closed body :: rest.written

namespace WrittenNote

/-- **A broken note**: the token that is reported, and what is wrong with it. -/
inductive Broken : WrittenNote → Text → TokenFault → Prop
  | token {body token : Text} {fault : TokenFault} : Segment.Breaks body token fault → Broken (.closed body) token fault
  | unclosed (opened : Text) : Broken (.unclosed opened) (opened.take Document.shownOfUnclosed) .openNote

/-- A note that is closed and comes apart into segments. -/
inductive Whole : WrittenNote → Prop
  | reads {body : Text} {segments : List Segment} {n : Nat} :
      Segment.Reads true 0 body segments n → Whole (.closed body)

/-- A broken note is not whole. -/
theorem Broken.not_whole {w : WrittenNote} {token : Text} {fault : TokenFault} (h : w.Broken token fault) :
    ¬w.Whole := by
  cases h with
  | token hb => exact fun ⟨hr⟩ => hb.not_reads hr
  | unclosed => exact fun hw => by cases hw

end WrittenNote

/-- **A document that is not read** has a broken note, and the earliest is reported. -/
theorem Document.ofLayout_broken {offset : Int} : ∀ {layout : Layout} {position : Int} {e : Failure},
    ofLayout offset position layout = .error e → ∃ (i : Nat) (w : WrittenNote) (token : Text) (fault : TokenFault),
      layout.written[i]? = some w ∧ w.Broken token fault ∧
      (∀ j < i, ∀ w', layout.written[j]? = some w' → w'.Whole) ∧
      e = .malformed token fault (position + i + offset)
  | .prose _, _, _, h => by cases h
  | .unclosed _ opened, position, _, h => by
    cases h
    exact ⟨0, .unclosed opened, _, _, rfl, .unclosed opened, by simp, by simp⟩
  | .note _ body rest, position, _, h => by
    rcases Except.bind_error h with h | ⟨n, hread, h⟩
    · rcases Except.bind_error h with h | ⟨_, _, h⟩
      · obtain ⟨token, fault, hb, rfl⟩ := Segment.breaks_of_readFrom h
        exact ⟨0, .closed body, token, fault, rfl, .token hb, by simp, by simp⟩
      · cases h
    · rcases Except.bind_error h with h | ⟨_, _, h⟩
      · obtain ⟨i, w, token, fault, hi, hb, hbefore, rfl⟩ := ofLayout_broken h
        refine ⟨i + 1, w, token, fault, hi, hb, fun j hj w' hw' => ?_, ?_⟩
        · cases j with
          | zero =>
            obtain ⟨segments, next, hreads, -⟩ := Note.exists_reads hread
            cases hw'
            exact ⟨hreads⟩
          | succ j => exact hbefore j (Nat.lt_of_succ_lt_succ hj) w' hw'
        · have hposition : position + 1 + (i : Int) = position + ((i + 1 : Nat) : Int) := by omega
          rw [hposition]
      · cases h

/-- A document that is read has no broken note. -/
theorem Document.ofLayout_whole {offset : Int} : ∀ {layout : Layout} {position : Int} {d : Document},
    ofLayout offset position layout = .ok d → ∀ w ∈ layout.written, w.Whole
  | .prose _, _, _, _ => by simp [Layout.written]
  | .unclosed _ _, _, _, h => by cases h
  | .note _ body rest, _, _, h => by
    obtain ⟨n, hread, h⟩ := Except.bind_ok h
    obtain ⟨d, hd, -⟩ := Except.bind_ok h
    obtain ⟨segments, next, hreads, -⟩ := Note.exists_reads hread
    exact List.forall_mem_cons.mpr ⟨⟨hreads⟩, ofLayout_whole hd⟩

/-! ## First faults -/

/-- **The first fault of a document** whose notes are displayed under their positions plus the offset, with the position
of the note that holds it. -/
inductive FirstFault (library : Library) (offset : Int) (t : Text) : Int → Failure → Prop
  /-- A token is malformed, or a note is never closed. -/
  | broken {i : Nat} {w : WrittenNote} {token : Text} {fault : TokenFault} :
      (Layout.ofText t).written[i]? = some w → w.Broken token fault →
      (∀ j < i, ∀ w', (Layout.ofText t).written[j]? = some w' → w'.Whole) →
      FirstFault library offset t (i + 1) (.malformed token fault (offset + (i + 1)))
  /-- No note is broken, but two are anchored under one name. -/
  | rebound {d : Document} {ref : Text} {first again : Note} :
      (∀ w ∈ (Layout.ofText t).written, w.Whole) → Document.read offset t = .ok d →
      Note.FirstRebinding d.notes ref first again →
      FirstFault library offset t again.position (.anchoredTwice ref first.number again.number)
  /-- No note is broken, and no two are anchored under one name, but a segment is at fault. -/
  | segment {d : Document} {n : Note} {e : Failure} :
      (∀ w ∈ (Layout.ofText t).written, w.Whole) → Document.read offset t = .ok d → d.notes.Pairwise Note.Apart →
      n ∈ d.notes → StoppedAt library d.notes {} (d.notes.flatMap Note.parts) n e →
      FirstFault library offset t n.position e

variable {library : Library} {offset position : Int} {t : Text} {e : Failure}

/-- The notes that segments stand in are those whose segments are read. -/
theorem StoppedAt.mem {notes : List Note} {l : Ledger} {n : Note}
    (h : StoppedAt library notes l (notes.flatMap Note.parts) n e) : n ∈ notes := by
  obtain ⟨before, s, after, l', hparts, -⟩ := h
  have hmem : (n, s) ∈ notes.flatMap Note.parts := by simp [hparts]
  obtain ⟨n', hn', hs⟩ := List.mem_flatMap.mp hmem
  obtain ⟨s', -, he⟩ := List.mem_map.mp hs
  cases he
  exact hn'

/-- **A first fault names its note.** -/
theorem FirstFault.note? (h : FirstFault library offset t position e) : e.note? = some (offset + position) := by
  have hnumber {d : Document} (hd : Document.read offset t = .ok d) {n : Note} (hn : n ∈ d.notes) :
      n.number = offset + n.position := by
    obtain ⟨i, hi⟩ := List.mem_iff_getElem?.mp hn
    rw [(Document.read_place hd hi).2, Int.add_comm]
  cases h with
  | broken => rfl
  | rebound _ hd hfirst =>
    obtain ⟨before, between, after, hnotes, -⟩ := hfirst
    exact congrArg some (hnumber hd (by simp [hnotes]))
  | segment _ hd _ hn hstopped =>
    obtain ⟨_, s, _, l', -, -, hs⟩ := hstopped
    rw [hs.note?, hnumber hd hn]

/-- The notes of a document have pincites that were found there. -/
theorem Document.found_of_read {d : Document} (h : Document.read offset t = .ok d) :
    ∀ n ∈ d.notes, ∀ m ∈ n.mentions, Pincite.Found m.pincite := by
  intro n hn
  obtain ⟨position, number, body, hbody⟩ := exists_body h hn
  exact Note.found_of_read hbody

/-- A document that fails for a reason that lies in a note has a first fault. -/
theorem exists_firstFault (hl : library.Keyed) {smallCaps : Bool} {k : Desk}
    (h : (outcome (process library offset smallCaps t) k).1 = .error e) (he : e.ofNote = true) :
    ∃ position, FirstFault library offset t position e := by
  unfold process at h
  rcases outcome_bind_error h with hread | ⟨d, _, hgiven, h⟩
  · obtain ⟨i, w, token, fault, hi, hb, hbefore, rfl⟩ := Document.ofLayout_broken hread
    have hnumber : 1 + (i : Int) + offset = offset + (i + 1) := by omega
    rw [hnumber]
    exact ⟨i + 1, .broken hi hb hbefore⟩
  · obtain ⟨hd, rfl⟩ := gives_liftM.mp hgiven
    rcases outcome_bind_error h with h | ⟨_, _, -, h⟩
    · cases h
    · rcases outcome_bind_error h with h | ⟨r, _, -, h⟩
      · rcases Resolution.ofNotes_fault hl (Document.singlyAnchored hd) (Document.found_of_read hd) h he with
          ⟨ref, first, again, hfirst, rfl⟩ | ⟨hapart, n, hstopped⟩
        · exact ⟨again.position, .rebound (Document.ofLayout_whole hd) hd hfirst⟩
        · exact ⟨n.position, .segment (Document.ofLayout_whole hd) hd hapart hstopped.mem hstopped⟩
      · cases h

/-- The earliest rebinding is of two notes that are not apart. -/
theorem Note.FirstRebinding.not_apart {notes : List Note} {ref : Text} {first again : Note}
    (h : FirstRebinding notes ref first again) : ¬notes.Pairwise Apart := by
  obtain ⟨before, between, after, rfl, -, hfirst, hagain⟩ := h
  intro hapart
  have hrest := (List.pairwise_append.mp hapart).2.1
  exact List.rel_of_pairwise_cons hrest (by simp) ref hfirst hagain

/-- A document that is worked through has no first fault. -/
theorem FirstFault.not_gives (h : FirstFault library offset t position e) {smallCaps : Bool} {k k' : Desk}
    {p : Processed} : ¬Gives (process library offset smallCaps t) k p k' := by
  intro hp
  obtain ⟨d, r, hd, hr, -⟩ := gives_process.mp hp
  obtain ⟨hapart, l, hpassed⟩ :=
    Resolution.passed_of_ofNotes (Document.singlyAnchored hd) (Document.found_of_read hd) hr
  cases h with
  | broken hi hb _ => exact hb.not_whole (Document.ofLayout_whole hd _ (List.mem_of_getElem? hi))
  | rebound _ hd' hfirst =>
    obtain rfl := Except.ok.inj (hd.symm.trans hd')
    exact hfirst.not_apart hapart
  | segment _ hd' _ _ hstopped =>
    obtain rfl := Except.ok.inj (hd.symm.trans hd')
    exact hpassed.not_stoppedAt _ _ hstopped

/-- **Work on a document that fails for a reason that lies in a note** fails for the first fault of the document, and
names the note that holds it: the offset plus its position. And a document with a fault is not worked through. -/
theorem process_first_fault (hl : library.Keyed) (offset : Int) (smallCaps : Bool) (t : Text) (k : Desk) :
    (∀ e, (outcome (process library offset smallCaps t) k).1 = .error e → e.ofNote = true →
      ∃ position, FirstFault library offset t position e ∧ e.note? = some (offset + position)) ∧
    ∀ position e, FirstFault library offset t position e →
      ∀ p, (outcome (process library offset smallCaps t) k).1 ≠ .ok p := by
  refine ⟨fun e h he => ?_, fun position e hfirst p h => ?_⟩
  · obtain ⟨position, hfirst⟩ := exists_firstFault hl h he
    exact ⟨position, hfirst, hfirst.note?⟩
  · exact hfirst.not_gives (Prod.ext h rfl)

/-- A note with a source that is not there, one that takes a name which the next takes again, and in this a malformed
token inside a parenthetical; the last note is never closed. -/
def Text.faultyNotes : Text := "u^[See [@lost].] v^[[?k] [@b].] w^[[?k] [@a] (see [@ d]).] x^[never closed"

/-- A bare "at" inside a parenthetical; after it a source that is not there, and a name that anchors nothing. -/
def Text.faultySegments : Text := "u^[See [@b] (quoting [@c] at).] v^[[@lost] [?gone].]"

/-- Of many faults the first is told. -/
theorem process_first_fault_ranked :
    (outcome (process Library.small (-2) false Text.faultyNotes) Desk.bare).1 =
        .error (.malformed "[@ d]" .notAnId 1) ∧
      FirstFault Library.small (-2) Text.faultyNotes 3 (.malformed "[@ d]" .notAnId 1) ∧
    (outcome (process Library.small (-2) false Text.faultySegments) Desk.bare).1 =
        .error (.emptyPincite "at" "c" (some (-1))) ∧
      FirstFault Library.small (-2) Text.faultySegments 1 (.emptyPincite "at" "c" (some (-1))) := by
  have hnotes : (outcome (process Library.small (-2) false Text.faultyNotes) Desk.bare).1 =
      .error (.malformed "[@ d]" .notAnId 1) := Except.eq_error_of_map (f := fun _ => ()) (by decide +kernel)
  have hsegments : (outcome (process Library.small (-2) false Text.faultySegments) Desk.bare).1 =
      .error (.emptyPincite "at" "c" (some (-1))) := Except.eq_error_of_map (f := fun _ => ()) (by decide +kernel)
  obtain ⟨position, hfirst, hnote⟩ :=
    (process_first_fault Library.small_keyed (-2) false Text.faultyNotes Desk.bare).1 _ hnotes rfl
  obtain ⟨position', hfirst', hnote'⟩ :=
    (process_first_fault Library.small_keyed (-2) false Text.faultySegments Desk.bare).1 _ hsegments rfl
  obtain rfl : position = 3 := by
    have : (1 : Int) = -2 + position := Option.some.inj hnote
    omega
  obtain rfl : position' = 1 := by
    have : (-1 : Int) = -2 + position' := Option.some.inj hnote'
    omega
  exact ⟨hnotes, hfirst, hsegments, hfirst'⟩

end Footcite
