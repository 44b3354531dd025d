import Footcite.Proofs.Document.Notes
import Footcite.Proofs.Document.Layout
import Footcite.Proofs.Text.Ends

/-!
# Where the notes of a document stand

A note stands where a caret and a square bracket come together with no backslash before them (`Text.OpensNote`), unless
these stand inside a note that began earlier. So the spans of a document that is read are those of its notes, one after
another, and no opening is left outside them. A note is reported as never closed exactly when the text before it is read
as a document, and its bracket is not closed in what follows (`Document.read_spans`).

For the second a layout is cut where a note may begin or end (`Layout.scan_append`): what comes before the cut can be
read by itself.
-/

namespace Footcite

/-! ## Openings -/

namespace Text

/-- **A note may open at the place**: a caret and a bracket stand there, and no backslash before them. -/
def OpensNote (t : Text) (i : Nat) : Prop :=
  t[i]? = some '^' ∧ t[i + 1]? = some '[' ∧ (0 < i → t[i - 1]? ≠ some '\\')

/-- The same as `OpensNote`, for a text that may come after a backslash. -/
def opensNote (escaped : Bool) : Text → Nat → Prop
  | [], _ => False
  | c :: rest, 0 => escaped = false ∧ c = '^' ∧ rest.head? = some '['
  | c :: rest, i + 1 => opensNote (c = '\\') rest i

/-- A note as it is written does not end in a backslash. -/
theorem endsIn_written (before : Bool) (body : Text) : endsIn '\\' before (Document.written body) = false := by
  rw [Document.written, endsIn_append]
  rfl

/-- No opening of a note is lost or found where a text is cut after its beginning. -/
theorem opensNote_append (u : Text) : ∀ (escaped : Bool) (t : Text) (i : Nat),
    opensNote escaped (t ++ u) (t.length + i) ↔ opensNote (endsIn '\\' escaped t) u i
  | escaped, [], i => by simp
  | escaped, c :: t, i => by
    rw [endsIn_cons, ← opensNote_append u (c = '\\') t i, List.length_cons, Nat.add_right_comm]
    rfl

theorem opensNote_iff : ∀ {escaped : Bool} {t : Text} {i : Nat}, opensNote escaped t i ↔
    t[i]? = some '^' ∧ t[i + 1]? = some '[' ∧ (i = 0 → escaped = false) ∧ (0 < i → t[i - 1]? ≠ some '\\')
  | escaped, [], i => by simp [opensNote]
  | escaped, c :: rest, 0 => by
    simp only [opensNote, List.getElem?_cons_zero, List.getElem?_cons_succ, List.head?_eq_getElem?, Option.some.injEq]
    constructor
    · rintro ⟨he, hc, hopen⟩
      exact ⟨hc, hopen, fun _ => he, fun h => absurd h (by omega)⟩
    · rintro ⟨hc, hopen, he, -⟩
      exact ⟨he trivial, hc, hopen⟩
  | escaped, c :: rest, i + 1 => by
    rw [opensNote, opensNote_iff]
    simp only [List.getElem?_cons_succ, Nat.add_sub_cancel, Nat.add_eq_zero_iff, Nat.one_ne_zero, and_false,
      false_imp_iff, true_and, Nat.zero_lt_succ, true_imp_iff]
    cases i with
    | zero => simp
    | succ i => simp

/-- The openings of a text that comes after no backslash. -/
theorem opensNote_false {t : Text} {i : Nat} : opensNote false t i ↔ t.OpensNote i := by
  simp [opensNote_iff, OpensNote]

end Text

/-! ## The spans of a layout -/

namespace Layout

/-- Where the notes of a layout begin and end, counted in characters from a place on. -/
def spansFrom : Nat → Layout → List (Nat × Nat)
  | start, note before body rest =>
    let first := start + before.length
    let last := first + (Document.written body).length
    (first, last) :: rest.spansFrom last
  | _, prose _ | _, unclosed .. => []

variable {c : Char} {escaped : Bool} {t u opened : Text} {l l' : Layout} {start i : Nat}

/-- A character in front moves every note by one place. -/
theorem spansFrom_cons : (l.cons c).spansFrom start = l.spansFrom (start + 1) := by
  cases l with
  | prose t => rfl
  | unclosed before opened => rfl
  | note before body rest =>
    have hfirst : start + (before.length + 1) = start + 1 + before.length := by omega
    simp only [cons, spansFrom, List.length_cons, hfirst]

/-- Each body has its span. -/
theorem length_spansFrom : ∀ (start : Nat) (l : Layout), (l.spansFrom start).length = l.bodies.length
  | _, prose _ | _, unclosed .. => rfl
  | _, note _ _ rest => congrArg (· + 1) (length_spansFrom _ rest)

/-- **Spans follow one another**, and none begins before the text. -/
theorem sorted_spansFrom : ∀ (start : Nat) (l : Layout),
    (∀ s ∈ l.spansFrom start, start ≤ s.1) ∧ (l.spansFrom start).Pairwise fun s s' => s.2 ≤ s'.1
  | _, prose _ | _, unclosed .. => by simp [spansFrom]
  | start, note before body rest => by
    obtain ⟨hafter, hsorted⟩ :=
      sorted_spansFrom (start + before.length + (Document.written body).length) rest
    refine ⟨fun s hs => ?_, List.pairwise_cons.mpr ⟨hafter, hsorted⟩⟩
    rcases List.mem_cons.mp hs with rfl | hs
    · exact Nat.le_add_right start before.length
    · have := hafter s hs
      omega

/-- **What stands in a span** is a note as it is written, and no backslash before it. -/
theorem span_split {s : Nat × Nat} {body : Text} (hs : ((scan escaped t).spansFrom start)[i]? = some s)
    (hb : (scan escaped t).bodies[i]? = some body) : ∃ before after, t = before ++ (Document.written body ++ after) ∧
      s = (start + before.length, start + before.length + (Document.written body).length) ∧
      Text.endsIn '\\' escaped before = false := by
  fun_induction scan escaped t generalizing start i with
  | case1 | case4 => cases hb
  | case2 opened ih =>
    rw [spansFrom_cons] at hs
    rw [bodies_cons] at hb
    obtain ⟨before, after, htext, rfl, hescaped⟩ := ih hs hb
    refine ⟨'^' :: before, after, by rw [htext]; rfl, ?_, by rwa [Text.endsIn_cons]⟩
    rw [List.length_cons, Nat.add_right_comm start 1, Nat.add_assoc start]
  | case3 escaped opened he body' rest h ih =>
    have htext : '^' :: '[' :: opened = Document.written body' ++ rest := by
      rw [enclosed?_eq h]
      simp [Document.written, square]
    cases i with
    | zero =>
      cases hs
      cases hb
      exact ⟨[], rest, htext, rfl, by simpa using he⟩
    | succ i =>
      obtain ⟨before, after, hrest, rfl, hescaped⟩ := ih hs hb
      refine ⟨Document.written body' ++ before, after, by rw [htext, hrest, List.append_assoc], ?_, ?_⟩
      · rw [List.length_append, List.length_nil, Nat.add_zero, Nat.add_assoc start]
      · rwa [Text.endsIn_append, Text.endsIn_written]
  | case5 escaped c rest _ ih =>
    rw [spansFrom_cons] at hs
    rw [bodies_cons] at hb
    obtain ⟨before, after, htext, rfl, hescaped⟩ := ih hs hb
    refine ⟨c :: before, after, by rw [htext]; rfl, ?_, by rwa [Text.endsIn_cons]⟩
    rw [List.length_cons, Nat.add_right_comm start 1, Nat.add_assoc start]

/-- What opens inside a note ends before the note does. -/
theorem opensNote_written {body after : Text} (ho : Text.opensNote escaped (Document.written body ++ after) i)
    (hi : i < (Document.written body).length) : i + 2 ≤ (Document.written body).length := by
  by_contra hlast
  have hlast : i = body.length + 2 := by
    simp [Document.written] at hi hlast
    omega
  subst hlast
  have hclosing := (Text.opensNote_iff.mp ho).1
  simp [Document.written] at hclosing

/-- **No opening is left outside the notes.** -/
theorem exists_span (start : Nat) (hc : (scan escaped t).Closed) (ho : Text.opensNote escaped t i) :
    ∃ s ∈ (scan escaped t).spansFrom start, s.1 ≤ start + i ∧ start + i + 2 ≤ s.2 := by
  fun_induction scan escaped t generalizing start i with
  | case1 => exact absurd ho id
  | case2 opened ih =>
    rw [closed_cons] at hc
    cases i with
    | zero => exact absurd ho.1 (by decide)
    | succ i =>
      obtain ⟨s, hs, hfirst, hlast⟩ := ih (start + 1) hc ho
      exact ⟨s, by rwa [spansFrom_cons], by omega, by omega⟩
  | case3 escaped opened he body rest h ih =>
    have htext : '^' :: '[' :: opened = Document.written body ++ rest := by
      rw [enclosed?_eq h]
      simp [Document.written, square]
    rw [htext] at ho
    rcases Nat.lt_or_ge i (Document.written body).length with hi | hi
    · have := opensNote_written ho hi
      exact ⟨_, List.mem_cons_self, Nat.le_add_right start i, by simp only [List.length_nil]; omega⟩
    · obtain ⟨j, rfl⟩ := Nat.exists_eq_add_of_le hi
      rw [Text.opensNote_append, Text.endsIn_written] at ho
      obtain ⟨s, hs, hfirst, hlast⟩ :=
        ih (start + ([] : Text).length + (Document.written body).length) hc ho
      simp only [List.length_nil] at hfirst hlast
      exact ⟨s, List.mem_cons_of_mem _ hs, by omega, by omega⟩
  | case4 => exact absurd hc id
  | case5 escaped c rest hopens ih =>
    rw [closed_cons] at hc
    cases i with
    | zero =>
      obtain ⟨-, rfl, hbracket⟩ := ho
      obtain ⟨opened, rfl⟩ := List.head?_eq_some_iff.mp hbracket
      exact absurd rfl (hopens opened rfl)
    | succ i =>
      obtain ⟨s, hs, hfirst, hlast⟩ := ih (start + 1) hc ho
      exact ⟨s, by rwa [spansFrom_cons], by omega, by omega⟩

/-! ## Layouts one after another -/

/-- A layout with closed notes followed by another. -/
def append : Layout → Layout → Layout
  | prose t, l => t.foldr cons l
  | unclosed before opened, _ => unclosed before opened
  | note before body rest, l => note before body (rest.append l)

theorem append_cons : (l.cons c).append l' = (l.append l').cons c := by cases l <;> rfl

@[simp] theorem foldr_cons_unclosed {before : Text} :
    t.foldr cons (unclosed before opened) = unclosed (t ++ before) opened := by
  induction t with
  | nil => rfl
  | cons c t ih => rw [List.foldr_cons, ih, cons, List.cons_append]

/-- **The layout of a text that is cut** where neither a note nor its opening is cut in two. -/
theorem scan_append (hc : (scan escaped t).Closed) (hcut : t.getLast? = some '^' → u.head? ≠ some '[') :
    scan escaped (t ++ u) = (scan escaped t).append (scan (Text.endsIn '\\' escaped t) u) := by
  fun_induction scan escaped t with
  | case1 => rfl
  | case2 opened ih =>
    rw [closed_cons] at hc
    rw [append_cons, Text.endsIn_cons]
    exact scan_escaped.trans (congrArg (cons '^') (ih hc (by simpa using hcut)))
  | case3 escaped opened he body rest h ih =>
    obtain rfl : escaped = false := by simpa using he
    have htext : '^' :: '[' :: opened = Document.written body ++ rest := by
      rw [enclosed?_eq h]
      simp [Document.written, square]
    have happ : enclosed? square (opened ++ u) = some (body, rest ++ u) := by
      obtain ⟨hopened, hbalanced⟩ := (Brackets.enclosed?_eq_some (by decide)).mp h
      exact (Brackets.enclosed?_eq_some (by decide)).mpr ⟨by rw [hopened]; simp, hbalanced⟩
    have hescaped : Text.endsIn '\\' false ('^' :: '[' :: opened) = Text.endsIn '\\' false rest := by
      rw [htext, Text.endsIn_append, Text.endsIn_written]
    rw [hescaped, append, ← ih hc ?_]
    · exact scan_note happ
    · intro hlast
      refine hcut ?_
      rw [htext, List.getLast?_append, hlast]
      rfl
  | case4 => exact absurd hc id
  | case5 escaped c rest hopens ih =>
    rw [closed_cons] at hc
    have hscan : scan escaped (c :: (rest ++ u)) = (scan (c = '\\') (rest ++ u)).cons c := by
      refine scan_cons ?_
      rintro rfl hbracket
      cases rest with
      | nil => exact hcut rfl (by simpa using hbracket)
      | cons d rest =>
        obtain rfl : d = '[' := by simpa using hbracket
        exact hopens rest rfl rfl
    rw [append_cons, Text.endsIn_cons, ← ih hc ?_]
    · exact hscan
    · intro hlast
      refine hcut ?_
      rw [List.getLast?_cons, hlast]
      rfl

theorem scan_unclosed (h : enclosed? square opened = none) :
    scan false ('^' :: '[' :: opened) = unclosed [] ('^' :: '[' :: opened) := by
  rw [scan]
  simp only [Bool.false_eq_true, if_false]
  split
  · next h' => simp [h] at h'
  · rfl

/-- **A note that is never closed** comes after a text whose notes are closed, and no backslash before it. -/
theorem exists_unclosed (hc : ¬(scan escaped t).Closed) : ∃ before opened, t = before ++ '^' :: '[' :: opened ∧
    (scan escaped before).Closed ∧ Text.endsIn '\\' escaped before = false ∧ enclosed? square opened = none := by
  fun_induction scan escaped t with
  | case1 => exact absurd trivial hc
  | case2 opened ih =>
    rw [closed_cons] at hc
    obtain ⟨before, opened', htext, hclosed, hescaped, hnone⟩ := ih hc
    cases before with
    | nil => cases htext
    | cons d before =>
      obtain ⟨rfl, rfl⟩ := List.cons.inj htext
      refine ⟨'^' :: '[' :: before, opened', rfl, ?_, by rwa [Text.endsIn_cons], hnone⟩
      rwa [scan_escaped, closed_cons]
  | case3 escaped opened he body rest h ih =>
    obtain rfl : escaped = false := by simpa using he
    obtain ⟨hopened, hbalanced⟩ := (Brackets.enclosed?_eq_some (by decide)).mp h
    obtain ⟨before, opened', hrest, hclosed, hescaped, hnone⟩ := ih hc
    refine ⟨Document.written body ++ before, opened', ?_, ?_, ?_, hnone⟩
    · rw [hopened, hrest]
      simp [Document.written, square]
    · have henclosed : enclosed? square (body ++ ']' :: before) = some (body, before) :=
        (Brackets.enclosed?_eq_some (by decide)).mpr ⟨rfl, hbalanced⟩
      have hwritten : Document.written body ++ before = '^' :: '[' :: (body ++ ']' :: before) := by
        simp [Document.written]
      rw [hwritten, scan_note henclosed]
      exact hclosed
    · rwa [Text.endsIn_append, Text.endsIn_written]
  | case4 escaped opened he hnone =>
    exact ⟨[], opened, rfl, by rw [scan]; trivial, by simpa using he, hnone⟩
  | case5 escaped c rest hopens ih =>
    rw [closed_cons] at hc
    obtain ⟨before, opened', htext, hclosed, hescaped, hnone⟩ := ih hc
    refine ⟨c :: before, opened', by rw [htext]; rfl, ?_, by rwa [Text.endsIn_cons], hnone⟩
    rw [scan_cons, closed_cons]
    · exact hclosed
    · rintro rfl hbracket
      obtain ⟨opened, rfl⟩ := List.head?_eq_some_iff.mp hbracket
      exact hopens _ rfl htext

end Layout

/-! ## The spans of a document -/

/-- A malformed token is no note that is never closed. -/
theorem Token.ne_openNote {c : Char} {rest token : Text} {fault : TokenFault}
    (h : read c rest = .error (token, fault)) : fault ≠ .openNote := by
  rintro rfl
  unfold read bracketed mentionOf at h
  grind

theorem Segment.Breaks.ne_openNote {body token : Text} {fault : TokenFault} (h : Breaks body token fault) :
    fault ≠ .openNote := by
  induction h with
  | here ht => exact Token.ne_openNote ht
  | within _ _ _ ih | after _ _ _ ih => exact ih

namespace Document

variable {offset position : Int} {l l' : Layout} {d : Document} {t : Text}

/-- A document has the spans and the bodies of its layout, and each note is read from its body. -/
theorem ofLayout_placed : ∀ {l : Layout} {position : Int} {d : Document}, ofLayout offset position l = .ok d →
    (∀ start, spansFrom start d.placed = l.spansFrom start) ∧ d.placed.map (·.body) = l.bodies ∧
    ∀ (i : Nat) (p : PlacedNote), d.placed[i]? = some p →
      Note.read (position + i) (position + i + offset) p.body = .ok p.note
  | .prose t, _, _, h => by
    cases h
    exact ⟨fun _ => rfl, rfl, by simp⟩
  | .unclosed _ _, _, _, h => by cases h
  | .note before body rest, position, _, h => by
    obtain ⟨note, hr, h⟩ := Except.bind_ok h
    obtain ⟨d, hd, he⟩ := Except.bind_ok h
    cases he
    obtain ⟨hspans, hbodies, hread⟩ := ofLayout_placed hd
    refine ⟨fun start => ?_, by rw [Layout.bodies, ← hbodies]; rfl, fun i p hp => ?_⟩
    · rw [spansFrom, Layout.spansFrom, hspans]
    · cases i with
      | zero =>
        cases hp
        simpa using hr
      | succ i =>
        have hposition : position + 1 + (i : Int) = position + ((i + 1 : Nat) : Int) := by omega
        rw [← hposition]
        exact hread i p hp

/-- **A layout followed by another** is read as these are, the second from the next position on. -/
theorem ofLayout_append (hc : l.Closed) : ofLayout offset position (l.append l') = (do
    let d ← ofLayout offset position l
    let d' ← ofLayout offset (position + d.placed.length) (d.rest.foldr Layout.cons l')
    .ok ⟨d.placed ++ d'.placed, d'.rest⟩) := by
  induction l generalizing position with
  | prose t =>
    simp only [Layout.append, ofLayout, bind, Except.bind, List.length_nil, Int.natCast_zero, Int.add_zero]
    cases ofLayout offset position (t.foldr Layout.cons l') <;> rfl
  | unclosed before opened => exact absurd hc id
  | note before body rest ih =>
    have hposition (n : Nat) : position + 1 + (n : Int) = position + ((n + 1 : Nat) : Int) := by omega
    simp only [Layout.append, ofLayout, ih hc, bind, Except.bind]
    cases Note.read position (position + offset) body with
    | error e => rfl
    | ok note =>
      cases ofLayout offset (position + 1) rest with
      | error e => rfl
      | ok d =>
        simp only [List.length_cons, hposition]
        cases ofLayout offset (position + ((d.placed.length + 1 : Nat) : Int)) (d.rest.foldr Layout.cons l') <;> rfl

/-- Where every note is closed, none is reported as open. -/
theorem ofLayout_closed (hc : l.Closed) {token : Text} {number : Int} :
    ofLayout offset position l ≠ .error (.malformed token .openNote number) := by
  induction l generalizing position with
  | prose t => exact fun h => by cases h
  | unclosed before opened => exact absurd hc id
  | note before body rest ih =>
    intro h
    rcases Except.bind_error h with h | ⟨note, -, h⟩
    · rcases Except.bind_error h with h | ⟨_, -, h⟩
      · obtain ⟨token, fault, hb, he⟩ := Segment.breaks_of_readFrom h
        cases he
        exact hb.ne_openNote rfl
      · cases h
    · rcases Except.bind_error h with h | ⟨_, -, h⟩
      · exact ih hc h
      · cases h

/-- A note that is never closed, after a text whose notes are closed. -/
theorem read_unclosed {before opened : Text} (hc : (Layout.ofText before).Closed)
    (hescaped : Text.endsIn '\\' false before = false) (hnone : enclosed? square opened = none) :
    read offset (before ++ '^' :: '[' :: opened) = (do
      let d ← read offset before
      .error (.malformed (List.take shownOfUnclosed ('^' :: '[' :: opened)) .openNote
        (1 + d.placed.length + offset))) := by
  have hscan : Layout.scan false ('^' :: '[' :: opened) = .unclosed [] ('^' :: '[' :: opened) :=
    Layout.scan_unclosed hnone
  rw [read, Layout.ofText, Layout.scan_append hc (fun _ => by simp), hescaped, hscan,
    ofLayout_append (l := Layout.scan false before) hc]
  simp only [Layout.foldr_cons_unclosed, ofLayout]
  rfl

/-- **The notes of a document stand where it says**: one after another, numbered in this order, each from an opening to
the bracket that closes it, and no opening is outside them. A note is reported as never closed exactly when the text
before it is read as a document, and no balanced text leads from its bracket to a closing one. -/
theorem read_spans (offset : Int) (t : Text) :
    (∀ d, read offset t = .ok d →
      d.spans.length = d.placed.length ∧ d.spans.Pairwise (fun s s' => s.2 ≤ s'.1) ∧
      (∀ (i : Nat) (p : PlacedNote) (s : Nat × Nat), d.placed[i]? = some p → d.spans[i]? = some s →
        p.note.position = i + 1 ∧ p.note.number = i + 1 + offset ∧
        (∃ before after, t = before ++ (written p.body ++ after) ∧ before.getLast? ≠ some '\\' ∧
          s = (before.length, before.length + (written p.body).length)) ∧
        square.Balanced p.body ∧ Note.read p.note.position p.note.number p.body = .ok p.note) ∧
      ∀ i, t.OpensNote i → ∃ s ∈ d.spans, s.1 ≤ i ∧ i + 2 ≤ s.2) ∧
    ∀ token number, read offset t = .error (.malformed token .openNote number) ↔
      ∃ before opened d, t = before ++ '^' :: '[' :: opened ∧ before.getLast? ≠ some '\\' ∧
        read offset before = .ok d ∧ (∀ body after, opened = body ++ ']' :: after → ¬square.Balanced body) ∧
        token = List.take shownOfUnclosed ('^' :: '[' :: opened) ∧ number = d.placed.length + 1 + offset := by
  refine ⟨fun d hd => ?_, fun token number => ⟨fun h => ?_, ?_⟩⟩
  · obtain ⟨hspans, hbodies, hread⟩ := ofLayout_placed hd
    have hspans : d.spans = (Layout.scan false t).spansFrom 0 := hspans 0
    have hbody {i : Nat} {p : PlacedNote} (hp : d.placed[i]? = some p) :
        (Layout.scan false t).bodies[i]? = some p.body := by
      have hmap : d.placed.map (·.body) = (Layout.scan false t).bodies := hbodies
      rw [← hmap, List.getElem?_map, hp]
      rfl
    rw [hspans]
    refine ⟨?_, (Layout.sorted_spansFrom 0 _).2, fun i p s hp hs => ?_, fun i hi => ?_⟩
    · rw [Layout.length_spansFrom, ← Layout.ofText, ← hbodies, List.length_map]
    · obtain ⟨before, after, ht, rfl, hescaped⟩ := Layout.span_split hs (hbody hp)
      have hnote := hread i p hp
      obtain ⟨hposition, hnumber⟩ := Note.read_place hnote
      refine ⟨by omega, by omega, ⟨before, after, ht, Text.endsIn_false.mp hescaped, by simp⟩, ?_, ?_⟩
      · exact Layout.balanced_of_mem_bodies (List.mem_of_getElem? (hbody hp))
      · rwa [hposition, hnumber]
    · obtain ⟨s, hs, hfirst, hlast⟩ :=
        Layout.exists_span 0 (ofLayout_bodies hd).1 (Text.opensNote_false.mpr hi)
      exact ⟨s, hs, by omega, by omega⟩
  · by_cases hc : (Layout.ofText t).Closed
    · exact absurd h (ofLayout_closed hc)
    · obtain ⟨before, opened, rfl, hclosed, hescaped, hnone⟩ := Layout.exists_unclosed hc
      rw [read_unclosed hclosed hescaped hnone] at h
      rcases Except.bind_error h with h | ⟨d, hd, h⟩
      · exact absurd h (ofLayout_closed hclosed)
      · cases h
        refine ⟨before, opened, d, rfl, Text.endsIn_false.mp hescaped, hd, fun body after ho hb => ?_, rfl, ?_⟩
        · rw [(Brackets.enclosed?_eq_some (by decide)).mpr ⟨ho, hb⟩] at hnone
          cases hnone
        · omega
  · rintro ⟨before, opened, d, rfl, hescaped, hd, hnever, rfl, rfl⟩
    have hnone : enclosed? square opened = none := by
      rw [Option.eq_none_iff_forall_not_mem]
      rintro ⟨body, after⟩ he
      obtain ⟨ho, hb⟩ := (Brackets.enclosed?_eq_some (by decide)).mp he
      exact hnever body after ho hb
    rw [read_unclosed (ofLayout_bodies hd).1 (Text.endsIn_false.mpr hescaped) hnone, hd]
    have hposition : 1 + (d.placed.length : Int) + offset = d.placed.length + 1 + offset := by omega
    rw [← hposition]
    rfl

/-- A note in a note, a note right after it, and a caret and a bracket after a backslash. -/
def nestedNotes : Text := "a^[b^[c]]^[d]\\^[e"

/-- The opening inside the first note is no note of its own; where nothing closes the second bracket, this is told. -/
theorem read_spans_nested :
    (∃ d, read 4 nestedNotes = .ok d ∧ d.spans = [(1, 9), (9, 13)] ∧
      nestedNotes.OpensNote 4 ∧ ∃ s ∈ d.spans, s.1 ≤ 4 ∧ 4 + 2 ≤ s.2) ∧
    read 4 "x^[y]^[z" = .error (.malformed "^[z" .openNote 6) := by
  have hopens : nestedNotes.OpensNote 4 := ⟨rfl, rfl, fun _ => by decide⟩
  obtain ⟨d, hd, hspans⟩ : ∃ d, read 4 nestedNotes = .ok d ∧ decide (d.spans = [(1, 9), (9, 13)]) = true :=
    Except.exists_ok_that (by decide +kernel)
  obtain ⟨d', hd', hone⟩ : ∃ d, read 4 "x^[y]" = .ok d ∧ decide (d.placed.length = 1) = true :=
    Except.exists_ok_that (by decide +kernel)
  have hnever (body after : Text) (h : (["z".front] : Text) = body ++ ']' :: after) : ¬square.Balanced body := by
    have hclosing : ']' ∈ body ++ ']' :: after := by simp
    rw [← h] at hclosing
    exact absurd hclosing (by decide)
  refine ⟨⟨d, hd, of_decide_eq_true hspans, hopens, ((read_spans 4 nestedNotes).1 d hd).2.2.2 4 hopens⟩, ?_⟩
  refine ((read_spans 4 "x^[y]^[z").2 "^[z" 6).mpr ⟨"x^[y]", "z", d', rfl, by decide, hd', hnever, rfl, ?_⟩
  rw [of_decide_eq_true hone]
  rfl

end Document

end Footcite
