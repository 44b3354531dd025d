import Footcite.Proofs.Document.Spans

/-!
# Documents one after another

A document that is put together of two is read as the two are, one after the other (`Document.read_append`): the notes of
the second come after those of the first, counted on from them, and stand as much further on as the first is long. It
must not be that the seam makes up the opening of a note, or takes one away: that the first ends in a caret and the
second begins with a bracket, or the first in a backslash and the second with the opening of a note.
-/

namespace Footcite

/-- The note so many positions further on, and under a number that is as much greater. -/
def Note.raised (k : Nat) (n : Note) : Note := { n with position := n.position + k, number := n.number + k }

/-! ## Layouts -/

namespace Layout

variable {t u : Text} {l l' : Layout} {start : Nat}

/-- A backslash before a text is no matter, unless the text begins with the opening of a note. -/
theorem scan_of_not_opening (h : ¬"^[".toList <+: u) (escaped : Bool) : scan escaped u = scan false u := by
  cases u with
  | nil => rw [scan, scan]
  | cons c rest =>
    have hopens : c = '^' → rest.head? ≠ some '[' := by
      rintro rfl hbracket
      obtain ⟨opened, rfl⟩ := List.head?_eq_some_iff.mp hbracket
      exact h ⟨opened, rfl⟩
    rw [scan_cons hopens, scan_cons hopens]

/-- Prose in front moves every note by its length. -/
theorem spansFrom_foldr (t : Text) : (t.foldr cons l).spansFrom start = l.spansFrom (start + t.length) := by
  induction t generalizing start with
  | nil => rfl
  | cons c t ih => rw [List.foldr_cons, spansFrom_cons, ih, List.length_cons, Nat.add_assoc, Nat.add_comm 1]

/-- The notes of a layout that follows another stand behind its text. -/
theorem spansFrom_append (hc : l.Closed) :
    (l.append l').spansFrom start = l.spansFrom start ++ l'.spansFrom (start + l.text.length) := by
  induction l generalizing start with
  | prose t => exact spansFrom_foldr t
  | unclosed before opened => exact absurd hc id
  | note before body rest ih =>
    have hlength : start + before.length + (Document.written body).length + rest.text.length =
        start + (note before body rest).text.length := by
      simp only [text, List.length_append]
      omega
    rw [append, spansFrom, spansFrom, ih hc, hlength, List.cons_append]

/-- Counted from a place further on, the notes stand as much further on. -/
theorem spansFrom_add (k : Nat) :
    l.spansFrom (start + k) = (l.spansFrom start).map fun s => (s.1 + k, s.2 + k) := by
  induction l generalizing start with
  | prose t => rfl
  | unclosed before opened => rfl
  | note before body rest ih =>
    have hfirst : start + k + before.length = start + before.length + k := by omega
    have hlast (n : Nat) : start + before.length + k + n = start + before.length + n + k := by omega
    rw [spansFrom, spansFrom, hfirst, hlast, ih, List.map_cons]

end Layout

/-! ## Documents -/

namespace Document

variable {offset position : Int} {l : Layout} {d : Document}

/-- The document with a character in front. -/
def cons (c : Char) (d : Document) : Document :=
  match d.placed with
  | [] => { d with rest := c :: d.rest }
  | p :: placed => { d with placed := { p with before := c :: p.before } :: placed }

theorem notes_cons (c : Char) (d : Document) : (d.cons c).notes = d.notes := by
  unfold cons
  split
  · next h => simp [notes, h]
  · next h => simp [notes, h]

theorem ofLayout_cons (c : Char) (h : ofLayout offset position l = .ok d) :
    ofLayout offset position (l.cons c) = .ok (d.cons c) := by
  cases l with
  | prose t =>
    cases h
    rfl
  | unclosed before opened => cases h
  | note before body rest =>
    obtain ⟨note, hr, h⟩ := Except.bind_ok h
    obtain ⟨d, hd, he⟩ := Except.bind_ok h
    cases he
    rw [Layout.cons, ofLayout, hr]
    show (ofLayout offset (position + 1) rest >>= _) = _
    rw [hd]
    rfl

/-- Prose in front is no matter to the notes. -/
theorem ofLayout_foldr (t : Text) (h : ofLayout offset position l = .ok d) :
    ∃ d', ofLayout offset position (t.foldr Layout.cons l) = .ok d' ∧ d'.notes = d.notes := by
  induction t with
  | nil => exact ⟨d, h, rfl⟩
  | cons c t ih =>
    obtain ⟨d', hd', hnotes⟩ := ih
    exact ⟨d'.cons c, ofLayout_cons c hd', (notes_cons c d').trans hnotes⟩

/-- **A layout is read at any other place too**, its notes counted on from there. -/
theorem ofLayout_elsewhere (offset' : Int) (k : Nat) : ∀ {l : Layout} {position : Int} {d : Document},
    ofLayout offset position l = .ok d → ∃ d', ofLayout offset' (position + k) l = .ok d' ∧
      d'.notes = d.notes.map fun n => { n.raised k with number := n.number + k + (offset' - offset) }
  | .prose t, _, _, h => by
    cases h
    exact ⟨_, rfl, rfl⟩
  | .unclosed _ _, _, _, h => by cases h
  | .note before body rest, position, _, h => by
    obtain ⟨note, hr, h⟩ := Except.bind_ok h
    obtain ⟨d, hd, he⟩ := Except.bind_ok h
    cases he
    obtain ⟨d', hd', hnotes⟩ := ofLayout_elsewhere offset' k hd
    have hposition : position + k + 1 = position + 1 + k := by omega
    rw [ofLayout, Note.read_elsewhere hr]
    show ∃ d', (ofLayout offset' (position + k + 1) rest >>= _) = _ ∧ _
    rw [hposition, hd']
    refine ⟨_, rfl, ?_⟩
    obtain ⟨hplace, hnumber⟩ := Note.read_place hr
    have hhead : { note with position := position + k, number := position + k + offset' } =
        { note.raised k with number := note.number + k + (offset' - offset) } := by
      have hnumber' : position + k + offset' = note.number + k + (offset' - offset) := by omega
      rw [Note.raised, hplace, hnumber']
    exact List.cons_eq_cons.mpr ⟨hhead, hnotes⟩

/-- **Two documents one after the other.** Unless the first ends in a caret and the second begins with a bracket, or the
first ends in a backslash and the second begins with the opening of a note, what the two make up together is read under
every offset: the notes of the first and then those of the second, their positions and numbers raised by the number of
notes in the first, and their spans by its length. -/
theorem read_append {offset₁ offset₂ : Int} {t u : Text} {d₁ d₂ : Document} (ht : read offset₁ t = .ok d₁)
    (hu : read offset₂ u = .ok d₂) (hbracket : ¬(t.getLast? = some '^' ∧ u.head? = some '['))
    (hbackslash : ¬(t.getLast? = some '\\' ∧ "^[".toList <+: u)) (offset : Int) :
    ∃ d e f, read offset t = .ok d ∧ read offset u = .ok e ∧ read offset (t ++ u) = .ok f ∧
      f.notes = d.notes ++ e.notes.map (Note.raised d.notes.length) ∧
      f.spans = d.spans ++ e.spans.map fun s => (s.1 + t.length, s.2 + t.length) := by
  have hanywhere {offset' : Int} {t : Text} {d : Document} (h : read offset' t = .ok d) :
      ∃ d', read offset t = .ok d' := by
    obtain ⟨d', hd', -⟩ := ofLayout_elsewhere offset 0 h
    exact ⟨d', by simpa [read] using hd'⟩
  obtain ⟨d, hd⟩ := hanywhere ht
  obtain ⟨e, he⟩ := hanywhere hu
  have hclosed : (Layout.ofText t).Closed := (ofLayout_bodies hd).1
  -- The layout of the whole is that of the first followed by that of the second.
  have hlayout : Layout.ofText (t ++ u) = (Layout.ofText t).append (Layout.ofText u) := by
    have hescaped : Layout.scan (Text.endsIn '\\' false t) u = Layout.scan false u := by
      by_cases hlast : t.getLast? = some '\\'
      · exact Layout.scan_of_not_opening (fun h => hbackslash ⟨hlast, h⟩) _
      · rw [Text.endsIn_false.mpr hlast]
    rw [Layout.ofText, Layout.scan_append hclosed fun hcaret hopening => hbracket ⟨hcaret, hopening⟩, hescaped]
    rfl
  -- The second is read on from the notes of the first, after the prose at the end of it.
  obtain ⟨e', he', hraised⟩ := ofLayout_elsewhere offset d.placed.length he
  obtain ⟨e'', he'', hnotes⟩ := ofLayout_foldr d.rest he'
  have hread : read offset (t ++ u) = .ok ⟨d.placed ++ e''.placed, e''.rest⟩ := by
    rw [read, hlayout, ofLayout_append hclosed]
    show (read offset t >>= _) = _
    rw [hd]
    show (ofLayout offset (1 + d.placed.length) _ >>= _) = _
    rw [he'']
    rfl
  refine ⟨d, e, _, hd, he, hread, ?_, ?_⟩
  · have hsplit : notes ⟨d.placed ++ e''.placed, e''.rest⟩ = d.notes ++ e''.notes := List.map_append
    rw [hsplit, hnotes, hraised]
    simp [notes, Note.raised]
  · have hspans {t : Text} {d : Document} (h : read offset t = .ok d) : d.spans = (Layout.ofText t).spansFrom 0 :=
      (ofLayout_placed h).1 0
    rw [hspans hread, hspans hd, hspans he, hlayout, Layout.spansFrom_append hclosed, Layout.ofText, Layout.text_scan,
      Layout.spansFrom_add]

/-- A bracket that is never closed ends the first document, and a caret begins the second. -/
theorem read_append_seam : ∃ d e f, read 3 "a^[b] [".toList = .ok d ∧ read 3 "^[[@x]]c^[d]".toList = .ok e ∧
    read 3 ("a^[b] [".toList ++ "^[[@x]]c^[d]".toList) = .ok f ∧
    f.notes = d.notes ++ e.notes.map (Note.raised d.notes.length) ∧
    f.spans = d.spans ++ e.spans.map fun s => (s.1 + "a^[b] [".toList.length, s.2 + "a^[b] [".toList.length) := by
  obtain ⟨d, hd, -⟩ : ∃ d, read 0 "a^[b] [" = .ok d ∧ true = true := Except.exists_ok_that (by decide +kernel)
  obtain ⟨e, he, -⟩ : ∃ d, read 5 "^[[@x]]c^[d]" = .ok d ∧ true = true := Except.exists_ok_that (by decide +kernel)
  exact read_append hd he (by decide) (by decide) 3

end Document

end Footcite
