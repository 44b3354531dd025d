import Footcite.Note.Anchors
import Footcite.Proofs.Note.Reads
import Footcite.Proofs.Note.Token
import Footcite.Proofs.Pincite.Clause

/-!
# All segments of a note

`Segment.allParts` lists the segments of a note at every depth. Of those that are read, every id and every name is well
formed and no pincite holds a bracket (`Note.sound_of_read`), and an anchor is the first segment of its note and the
only anchor there (`Note.anchor_of_read`).
-/

namespace Footcite

namespace Segment

mutual

/-- A segment and those of its parenthetical, at every depth. -/
def parts : Segment → List Segment
  | .mention m inner => .mention m inner :: allParts inner
  | s => [s]

/-- The segments of several and of their parentheticals. -/
def allParts : List Segment → List Segment
  | [] => []
  | s :: rest => s.parts ++ allParts rest

end

@[simp] theorem allParts_nil : allParts [] = [] := rfl

@[simp] theorem allParts_cons (s : Segment) (rest : List Segment) :
    allParts (s :: rest) = s.parts ++ allParts rest := rfl

/-- A segment is one of its parts. -/
theorem mem_parts_self (s : Segment) : s ∈ s.parts := by
  cases s <;> simp [parts]

theorem mem_allParts_of_mem {s : Segment} {segments : List Segment} (h : s ∈ segments) : s ∈ allParts segments := by
  induction segments with
  | nil => cases h
  | cons s' rest ih =>
    rw [allParts_cons, List.mem_append]
    rcases List.mem_cons.mp h with rfl | h
    · exact .inl (mem_parts_self s)
    · exact .inr (ih h)

/-- A character adds no segment but a text. -/
theorem mem_allParts_consChar {c : Char} {segments : List Segment} {s : Segment}
    (h : s ∈ allParts (consChar c segments)) : (∃ t, s = .text t) ∨ s ∈ allParts segments := by
  unfold consChar at h
  split at h
  · rcases List.mem_cons.mp h with rfl | h
    · exact .inl ⟨_, rfl⟩
    · exact .inr (List.mem_cons_of_mem _ h)
  · exact .inr h
  · rcases List.mem_cons.mp h with rfl | h
    · exact .inl ⟨_, rfl⟩
    · exact .inr h

mutual

theorem parts_markString : ∀ s : Segment, s.markString.parts = s.parts.map markString
  | .text _ => rfl
  | .mention m inner => by
    simp only [markString, parts, List.map_cons]
    rw [allParts_markAll inner]
  | .breaker _ => rfl
  | .anchor _ => rfl
  | .use _ => rfl

/-- Marking marks the segments at every depth. -/
theorem allParts_markAll : ∀ segments : List Segment, allParts (markAll segments) = (allParts segments).map markString
  | [] => rfl
  | s :: rest => by
    rw [markAll, allParts_cons, allParts_cons, List.map_append, parts_markString s, allParts_markAll rest]

end

/-! ## Well-formed segments -/

/-- A segment with an id or a name that can be written as one, and with a pincite that holds no brackets. -/
def Sound : Segment → Prop
  | .mention m _ => Token.isMentionId m.source = true ∧ ∀ c ∈ m.pincite.getD [], isBracket c = false
  | .anchor ref | .use ref => Token.isReferenceId ref = true
  | .text _ | .breaker _ => True

theorem Sound.markString {s : Segment} (h : s.Sound) : s.markString.Sound := by
  cases s <;> exact h

/-- What a token that is read stands for. -/
theorem sound_of_mention {c : Char} {rest r source : Text} {pincite parenthetical : Option Text}
    (h : Token.read c rest = .ok (.mention source pincite parenthetical, r)) :
    Token.isMentionId source = true ∧ ∀ c ∈ pincite.getD [], isBracket c = false := by
  have hclause {after rest : Text} (hscan : Pincite.scan after = (pincite, rest)) :
      ∀ c ∈ pincite.getD [], isBracket c = false := by
    obtain ⟨u, -, hpin, hfree⟩ := Pincite.scan_eq after
    rw [hscan] at hpin
    subst hpin
    intro c hc
    apply hfree
    cases ht : u.trimmed? with
    | none => simp [ht] at hc
    | some s =>
      obtain ⟨lead, trail, hu, -, -⟩ := Text.exists_trim u
      rw [ht, Option.getD_some, Text.trimmed?_eq_some ht] at hc
      rw [hu]
      simp [hc]
  cases Token.heads_of_read h with
  | bare hid hscan => exact ⟨hid, hclause hscan⟩
  | parenthesised hid hscan => exact ⟨hid, hclause hscan⟩

variable {opening : Bool} {ordinal n : Nat} {body : Text} {segments : List Segment}

/-- **What is read is well formed**, at every depth. -/
theorem Reads.sound (h : Reads opening ordinal body segments n) : ∀ s ∈ allParts segments, s.Sound := by
  induction h with
  | done => simp
  | char _ _ ih =>
    intro s hs
    rcases mem_allParts_consChar hs with ⟨t, rfl⟩ | hs
    · trivial
    · exact ih s hs
  | mention ht _ _ ih =>
    simp only [allParts_cons, parts, allParts_nil, List.cons_append, List.nil_append, List.forall_mem_cons]
    exact ⟨sound_of_mention ht, ih⟩
  | nested ht _ _ _ ihi ih =>
    simp only [allParts_cons, parts, List.cons_append, List.forall_mem_cons, List.forall_mem_append]
    exact ⟨sound_of_mention ht, ihi, ih⟩
  | breaker _ _ ih =>
    simp only [allParts_cons, parts, List.cons_append, List.nil_append, List.forall_mem_cons]
    exact ⟨trivial, ih⟩
  | @reference opening _ _ _ _ _ _ _ ht _ ih =>
    have hid := Token.reference_of_read ht
    cases opening with
    | true =>
      simp only [if_true, allParts_cons, parts, List.cons_append, List.nil_append, List.forall_mem_cons]
      exact ⟨hid, ih⟩
    | false =>
      simp only [Bool.false_eq_true, if_false, allParts_cons, parts, List.cons_append, List.nil_append,
        List.forall_mem_cons]
      exact ⟨hid, ih⟩

/-! ## Anchors -/

/-- **An anchor comes first**, after blanks at most, and is the only one. -/
theorem Reads.anchor_first (h : Reads opening ordinal body segments n) {ref : Text}
    (hr : .anchor ref ∈ allParts segments) :
    opening = true ∧ ∃ rest, segments = .anchor ref :: rest ∧ ∀ ref', .anchor ref' ∉ allParts rest := by
  induction h generalizing ref with
  | done => cases hr
  | char _ _ ih =>
    rcases mem_allParts_consChar hr with ⟨t, ht⟩ | hr
    · cases ht
    · obtain ⟨hopening, rest, rfl, hrest⟩ := ih hr
      exact ⟨(Bool.and_eq_true_iff.mp hopening).1, rest, rfl, hrest⟩
  | mention _ _ _ ih =>
    simp only [allParts_cons, parts, allParts_nil, List.cons_append, List.nil_append, List.mem_cons, reduceCtorEq,
      false_or] at hr
    cases (ih hr).1
  | nested _ _ _ _ ihi ih =>
    simp only [allParts_cons, parts, List.cons_append, List.mem_cons, List.mem_append, reduceCtorEq, false_or] at hr
    rcases hr with hr | hr
    · cases (ihi hr).1
    · cases (ih hr).1
  | breaker _ _ ih =>
    simp only [allParts_cons, parts, List.cons_append, List.nil_append, List.mem_cons, reduceCtorEq, false_or] at hr
    cases (ih hr).1
  | @reference opening _ _ _ _ _ _ segments _ _ ih =>
    have hnone (ref' : Text) : .anchor ref' ∉ allParts segments := fun h => Bool.false_ne_true (ih h).1
    cases opening with
    | true =>
      simp only [if_true, allParts_cons, parts, List.cons_append, List.nil_append, List.mem_cons] at hr
      rcases hr with hr | hr
      · cases hr
        exact ⟨rfl, segments, rfl, hnone⟩
      · exact absurd hr (hnone ref)
    | false =>
      simp only [Bool.false_eq_true, if_false, allParts_cons, parts, List.cons_append, List.nil_append, List.mem_cons,
        reduceCtorEq, false_or] at hr
      exact absurd hr (hnone ref)

end Segment

/-! ## Notes -/

variable {position number : Int} {body : Text} {n : Note}

/-- **The segments of a note are well formed.** -/
theorem Note.sound_of_read (h : read position number body = .ok n) : ∀ s ∈ Segment.allParts n.segments, s.Sound := by
  obtain ⟨segments, next, hreads, hs | hs⟩ := Note.exists_reads h
  · rw [hs]
    exact hreads.sound
  · rw [hs, Segment.allParts_markAll]
    intro s hmem
    obtain ⟨s', hs', rfl⟩ := List.mem_map.mp hmem
    exact (hreads.sound s' hs').markString

/-- **A note has one anchor at most, and begins with it.** -/
theorem Note.anchor_of_read (h : read position number body = .ok n) {ref : Text}
    (hr : .anchor ref ∈ Segment.allParts n.segments) :
    ∃ rest, n.segments = .anchor ref :: rest ∧ ∀ ref', .anchor ref' ∉ Segment.allParts rest := by
  obtain ⟨segments, next, hreads, hs | hs⟩ := Note.exists_reads h
  · rw [hs] at hr ⊢
    exact (hreads.anchor_first hr).2
  · have hunmark {ref : Text} {segments : List Segment}
        (hr : .anchor ref ∈ Segment.allParts (Segment.markAll segments)) : .anchor ref ∈ Segment.allParts segments := by
      rw [Segment.allParts_markAll] at hr
      obtain ⟨s, hs, he⟩ := List.mem_map.mp hr
      cases s <;> cases he
      exact hs
    rw [hs] at hr ⊢
    obtain ⟨-, rest, rfl, hrest⟩ := hreads.anchor_first (hunmark hr)
    exact ⟨Segment.markAll rest, rfl, fun ref' h => hrest ref' (hunmark h)⟩

end Footcite
