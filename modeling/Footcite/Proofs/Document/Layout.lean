import Footcite.Document.Basic
import Footcite.Proofs.Note.Reads
import Footcite.Proofs.Text.Brackets

/-!
# Layouts and their texts

The layout of a text makes up the text again (`Layout.text_scan`), and each body in it is balanced
(`Layout.balanced_of_mem_bodies`). Put other balanced texts in place of the bodies (`Layout.withBodies`): what comes out
has the layout with these bodies (`Layout.scan_withBodies`), since no prose is touched and no note begins or ends
elsewhere. A document that is filled with new bodies is the text of such a layout (`Document.fill_eq`).
-/

namespace Footcite

namespace Layout

/-- The text of a layout. -/
def text : Layout → Text
  | prose t => t
  | unclosed before opened => before ++ opened
  | note before body rest => before ++ (Document.written body ++ rest.text)

/-- The bodies of the notes in order. -/
def bodies : Layout → List Text
  | note _ body rest => body :: rest.bodies
  | prose _ | unclosed .. => []

/-- Every note is closed. -/
def Closed : Layout → Prop
  | note _ _ rest => rest.Closed
  | prose _ => True
  | unclosed .. => False

/-- The layout with other bodies, as many as there are. -/
def withBodies : Layout → List Text → Layout
  | note before _ rest, body :: bodies => note before body (rest.withBodies bodies)
  | l, _ => l

variable {c : Char} {escaped : Bool} {t opened : Text} {l : Layout} {bs : List Text}

/-! ## A character in front -/

@[simp] theorem text_cons : (l.cons c).text = c :: l.text := by cases l <;> rfl

@[simp] theorem bodies_cons : (l.cons c).bodies = l.bodies := by cases l <;> rfl

@[simp] theorem closed_cons : (l.cons c).Closed ↔ l.Closed := by cases l <;> rfl

@[simp] theorem withBodies_cons : (l.cons c).withBodies bs = (l.withBodies bs).cons c := by
  cases l <;> cases bs <;> rfl

/-! ## Scanning -/

theorem scan_escaped : scan true ('^' :: '[' :: opened) = (scan false ('[' :: opened)).cons '^' := by
  rw [scan]
  simp

theorem scan_note {body rest : Text} (h : enclosed? square opened = some (body, rest)) :
    scan false ('^' :: '[' :: opened) = note [] body (scan false rest) := by
  rw [scan]
  simp only [Bool.false_eq_true, if_false]
  split
  · next h' =>
    rw [h] at h'
    cases h'
    rfl
  · next h' => simp [h] at h'

/-- A character that does not begin a note, escaped or not. -/
theorem scan_cons (h : c = '^' → t.head? ≠ some '[') : scan escaped (c :: t) = (scan (c = '\\') t).cons c := by
  rw [scan]
  rintro opened rfl rfl
  exact h rfl rfl

/-- **A layout makes up its text.** -/
theorem text_scan (escaped : Bool) (t : Text) : (scan escaped t).text = t := by
  fun_induction scan escaped t with
  | case1 => rfl
  | case2 opened ih => rw [text_cons, ih]
  | case3 escaped opened _ body rest h ih =>
    rw [text, ih, enclosed?_eq h]
    simp [Document.written, square]
  | case4 => rfl
  | case5 escaped c rest _ ih => rw [text_cons, ih]

/-- **The body of a note is balanced.** -/
theorem balanced_of_mem_bodies {body : Text} (h : body ∈ (scan escaped t).bodies) : square.Balanced body := by
  fun_induction scan escaped t with
  | case1 => cases h
  | case2 opened ih => exact ih (bodies_cons ▸ h)
  | case3 escaped opened _ body' rest he ih =>
    rcases List.mem_cons.mp h with rfl | h
    · exact ((Brackets.enclosed?_eq_some (by decide)).mp he).2
    · exact ih h
  | case4 => cases h
  | case5 escaped c rest _ ih => exact ih (bodies_cons ▸ h)

/-! ## Other bodies -/

/-- The bodies that are put in are those that are there then. -/
theorem bodies_withBodies : ∀ {l : Layout} {bs : List Text}, bs.length = l.bodies.length → (l.withBodies bs).bodies = bs
  | prose _, [], _ | unclosed .., [], _ => rfl
  | prose _, _ :: _, h | unclosed .., _ :: _, h => by simp [bodies] at h
  | note .., [], h => by simp [bodies] at h
  | note _ _ rest, body :: bs, h => by
    rw [withBodies, bodies, bodies_withBodies (l := rest) (by simpa [bodies] using h)]

/-- A text begins as it did, whatever its bodies. -/
theorem head?_text_withBodies (l : Layout) (bs : List Text) : (l.withBodies bs).text.head? = l.text.head? := by
  cases l with
  | prose t => rfl
  | unclosed before opened => rfl
  | note before body rest =>
    cases bs with
    | nil => rfl
    | cons b bs => cases before <;> rfl

/-- **Balanced texts in place of the bodies are the bodies of the notes that are found then**, and the prose between
them is as it was. -/
theorem scan_withBodies (hc : (scan escaped t).Closed) (hb : ∀ b ∈ bs, square.Balanced b)
    (hn : bs.length = (scan escaped t).bodies.length) :
    scan escaped ((scan escaped t).withBodies bs).text = (scan escaped t).withBodies bs := by
  fun_induction scan escaped t generalizing bs with
  | case1 => exact scan.eq_1 _
  | case2 opened ih =>
    rw [closed_cons] at hc
    rw [bodies_cons] at hn
    rw [withBodies_cons, text_cons]
    -- The bracket after an escaped caret stays where it is.
    have hhead := head?_text_withBodies (scan false ('[' :: opened)) bs
    rw [text_scan] at hhead
    obtain ⟨u, hu⟩ : ∃ u, ((scan false ('[' :: opened)).withBodies bs).text = '[' :: u := by
      cases ht : ((scan false ('[' :: opened)).withBodies bs).text with
      | nil => simp [ht] at hhead
      | cons c u => exact ⟨u, by simpa [ht] using hhead⟩
    rw [hu, scan_escaped, ← hu, ih hc hb hn]
  | case3 escaped opened he body rest h ih =>
    obtain rfl : escaped = false := by simpa using he
    cases bs with
    | nil => simp [bodies] at hn
    | cons b bs =>
      obtain ⟨hbalanced, hb⟩ := List.forall_mem_cons.mp hb
      have henclosed : enclosed? square (b ++ ']' :: ((scan false rest).withBodies bs).text) =
          some (b, ((scan false rest).withBodies bs).text) :=
        (Brackets.enclosed?_eq_some (by decide)).mpr ⟨rfl, hbalanced⟩
      have htext : (note [] b ((scan false rest).withBodies bs)).text =
          '^' :: '[' :: (b ++ ']' :: ((scan false rest).withBodies bs).text) := by
        simp [text, Document.written]
      rw [withBodies, htext, scan_note henclosed, ih hc hb (by simpa [bodies] using hn)]
  | case4 => exact absurd hc id
  | case5 escaped c rest hopens ih =>
    rw [closed_cons] at hc
    rw [bodies_cons] at hn
    rw [withBodies_cons, text_cons, scan_cons, ih hc hb hn]
    rw [head?_text_withBodies, text_scan]
    intro hcaret hbracket
    obtain ⟨opened, rfl⟩ := List.head?_eq_some_iff.mp hbracket
    exact hopens opened hcaret rfl

end Layout

/-! ## Documents -/

namespace Document

/-- **A document that is read** has the notes of its layout, read from the bodies there. -/
theorem ofLayout_bodies {offset : Int} : ∀ {l : Layout} {position : Int} {d : Document},
    ofLayout offset position l = .ok d → l.Closed ∧
      d.notes.length = l.bodies.length ∧
      (∀ n ∈ d.notes, ∃ body ∈ l.bodies, ∃ position number, Note.read position number body = .ok n) ∧
      ∀ bs : List Text, bs.length = l.bodies.length → d.fill bs = (l.withBodies bs).text
  | .prose t, _, _, h => by
    cases h
    refine ⟨trivial, rfl, by simp [notes], fun bs hb => ?_⟩
    rw [List.length_eq_zero_iff.mp hb]
    rfl
  | .unclosed _ _, _, _, h => by cases h
  | .note before body rest, position, _, h => by
    obtain ⟨note, hr, h⟩ := Except.bind_ok h
    obtain ⟨d, hd, he⟩ := Except.bind_ok h
    cases he
    obtain ⟨hc, hlength, hnotes, hfill⟩ := ofLayout_bodies hd
    refine ⟨hc, congrArg (· + 1) hlength, ?_, fun bs hb => ?_⟩
    · intro n hn
      rcases List.mem_cons.mp hn with rfl | hn
      · exact ⟨body, List.mem_cons_self, _, _, hr⟩
      · obtain ⟨body', hb, hread⟩ := hnotes n hn
        exact ⟨body', List.mem_cons_of_mem _ hb, hread⟩
    · cases bs with
      | nil => simp [Layout.bodies] at hb
      | cons b bs =>
        rw [Layout.withBodies, Layout.text, ← hfill bs (by simpa [Layout.bodies] using hb)]
        simp [fill, fillNotes]

end Document

end Footcite
