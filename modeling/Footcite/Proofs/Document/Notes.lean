import Footcite.Document.Basic
import Footcite.Proofs.Note.Breaks

/-!
# The notes of a document

The notes of a document stand at the positions one, two, three and so on, and are displayed under these plus the offset
(`Document.read_place`). So a position says which note it is (`Document.eq_of_position`), and positions only grow
(`Document.sorted_positions`). The mentions of a note are marked by whether it holds another (`Document.inString_iff`).
Nothing but a malformed token keeps a document from being read (`Document.ofLayout_error`).
-/

namespace Footcite.Document

/-- The notes of a layout are read from its bodies at positions that count on. -/
theorem ofLayout_notes {offset : Int} : ∀ {layout : Layout} {position : Int} {d : Document},
    ofLayout offset position layout = .ok d → ∀ (i : Nat) (n : Note), d.notes[i]? = some n →
      ∃ body, Note.read (position + i) (position + i + offset) body = .ok n
  | .prose t, _, _, h, i, n, hn => by
    cases h
    simp [notes] at hn
  | .unclosed _ _, _, _, h, _, _, _ => by cases h
  | .note before body rest, position, _, h, i, n, hn => by
    obtain ⟨note, hr, h⟩ := Except.bind_ok h
    obtain ⟨d, hd, he⟩ := Except.bind_ok h
    cases he
    cases i with
    | zero =>
      simp only [notes, List.map_cons, List.getElem?_cons_zero, Option.some.injEq] at hn
      subst hn
      exact ⟨body, by simpa using hr⟩
    | succ i =>
      have hn : d.notes[i]? = some n := by simpa [notes] using hn
      obtain ⟨body, hb⟩ := ofLayout_notes hd i n hn
      have hp : position + 1 + (i : Int) = position + ((i + 1 : Nat) : Int) := by omega
      exact ⟨body, by rwa [hp] at hb⟩

/-- A document is not read when a token is malformed, and for no other reason. -/
theorem ofLayout_error {offset : Int} : ∀ {layout : Layout} {position : Int} {e : Failure},
    ofLayout offset position layout = .error e → ∃ token fault note, e = .malformed token fault note
  | .prose _, _, _, h => by cases h
  | .unclosed _ _, _, _, h => by
    cases h
    exact ⟨_, _, _, rfl⟩
  | .note _ _ rest, _, _, h => by
    rcases Except.bind_error h with h | ⟨_, _, h⟩
    · rcases Except.bind_error h with h | ⟨_, _, h⟩
      · obtain ⟨token, fault, -, rfl⟩ := Segment.breaks_of_readFrom h
        exact ⟨token, fault, _, rfl⟩
      · cases h
    · rcases Except.bind_error h with h | ⟨_, _, h⟩
      · exact ofLayout_error h
      · cases h

variable {offset : Int} {t : Text} {d : Document}

/-- **A note is numbered by its place**, counted from one, and displayed under that number plus the offset. -/
theorem read_place (h : read offset t = .ok d) {i : Nat} {n : Note} (hn : d.notes[i]? = some n) :
    n.position = i + 1 ∧ n.number = n.position + offset := by
  obtain ⟨body, hb⟩ := ofLayout_notes h i n hn
  obtain ⟨hp, hnum⟩ := Note.read_place hb
  omega

/-- Each note of a document is read from a body. -/
theorem exists_body (h : read offset t = .ok d) {n : Note} (hn : n ∈ d.notes) :
    ∃ position number body, Note.read position number body = .ok n := by
  obtain ⟨i, hi⟩ := List.mem_iff_getElem?.mp hn
  obtain ⟨body, hbody⟩ := ofLayout_notes h i n hi
  exact ⟨_, _, body, hbody⟩

/-- Two notes at one position are the same note. -/
theorem eq_of_position (h : read offset t = .ok d) {n n' : Note} (hn : n ∈ d.notes) (hn' : n' ∈ d.notes)
    (hp : n.position = n'.position) : n = n' := by
  obtain ⟨i, hi⟩ := List.mem_iff_getElem?.mp hn
  obtain ⟨j, hj⟩ := List.mem_iff_getElem?.mp hn'
  have hij : i = j := by
    have := (read_place h hi).1
    have := (read_place h hj).1
    omega
  subst hij
  rw [hi] at hj
  exact Option.some.inj hj

/-- Positions only grow. -/
theorem sorted_positions (h : read offset t = .ok d) : d.notes.Pairwise fun n n' => n.position < n'.position := by
  rw [List.pairwise_iff_getElem]
  intro i j hi hj hij
  have := (read_place h (List.getElem?_eq_getElem hi)).1
  have := (read_place h (List.getElem?_eq_getElem hj)).1
  omega

/-- A mention of a note is marked exactly when the note holds another. -/
theorem inString_iff (h : read offset t = .ok d) {n : Note} (hn : n ∈ d.notes) {m : Mention} (hm : m ∈ n.mentions) :
    m.inString = true ↔ n.mentions.length ≠ 1 := by
  obtain ⟨position, number, body, hb⟩ := exists_body h hn
  exact Note.inString_iff hb m hm

end Footcite.Document
