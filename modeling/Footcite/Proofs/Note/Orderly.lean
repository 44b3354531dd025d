import Footcite.Proofs.Note.Openings
import Mathlib.Data.List.Chain

/-!
# The order of a note

What holds of the segments of every note that is read (`Note.orderly_of_read`). Texts are not empty, and no two stand
side by side, neither in the note nor in a parenthetical; they open no tokens. The mentions and breakers are counted from
zero in reading order, a mention before the contents of its parenthetical, without a gap. A note begins with its anchor,
if it has one. Its mentions are all marked as one of several, or none of them is; and the parenthetical of a mention has
segments where it holds tokens.
-/

namespace Footcite

namespace Segment

/-! ## Texts side by side -/

/-- Whether the segment is a text. -/
def isText : Segment → Bool
  | .text _ => true
  | .mention _ _ | .breaker _ | .anchor _ | .use _ => false

/-- **Texts are not empty, and no two stand side by side.** -/
structure Spaced (segments : List Segment) : Prop where
  written : ∀ t, .text t ∈ segments → t ≠ []
  apart : segments.IsChain fun s s' => s.isText = false ∨ s'.isText = false

theorem Spaced.nil : Spaced [] := ⟨by simp, .nil⟩

theorem spaced_cons {s : Segment} {segments : List Segment} (hs : s.isText = false) (h : Spaced segments) :
    Spaced (s :: segments) where
  written t ht := by
    rcases List.mem_cons.mp ht with rfl | ht
    · cases hs
    · exact h.written t ht
  apart := List.isChain_cons.mpr ⟨fun _ _ => .inl hs, h.apart⟩

/-- A character joins the text at the front, or begins one. -/
theorem spaced_consChar (c : Char) {segments : List Segment} (h : Spaced segments) : Spaced (consChar c segments) := by
  unfold consChar
  split
  · next t rest =>
    obtain ⟨hwritten, hapart⟩ := h
    refine ⟨fun t' ht' => ?_, List.isChain_cons.mpr (List.isChain_cons.mp hapart)⟩
    rcases List.mem_cons.mp ht' with heq | ht'
    · cases heq
      exact List.cons_ne_nil c t
    · exact hwritten t' (List.mem_cons_of_mem _ ht')
  · exact h
  · next htext _ =>
    refine ⟨fun t' ht' => ?_, List.isChain_cons.mpr ⟨fun s hs => .inr ?_, h.apart⟩⟩
    · rcases List.mem_cons.mp ht' with heq | ht'
      · cases heq
        exact List.cons_ne_nil c []
      · exact h.written t' ht'
    · obtain ⟨rest, rfl⟩ := List.head?_eq_some_iff.mp hs
      cases s with
      | text t => exact absurd rfl (htext t rest)
      | mention | breaker | anchor | use => rfl

variable {opening : Bool} {ordinal n : Nat} {body : Text} {segments : List Segment}

theorem Reads.spaced (h : Reads opening ordinal body segments n) : Spaced segments := by
  induction h with
  | done => exact .nil
  | char _ _ ih => exact spaced_consChar _ ih
  | mention _ _ _ ih => exact spaced_cons rfl ih
  | nested _ _ _ _ _ ih => exact spaced_cons rfl ih
  | breaker _ _ ih => exact spaced_cons rfl ih
  | reference _ _ ih =>
    split <;> exact spaced_cons rfl ih

/-- **What is read of parentheses**: segments that are spaced, where the parenthetical holds tokens. -/
def Enclosing : Segment → Prop
  | .mention m inner => Spaced inner ∧ (inner ≠ [] ↔ ∃ p, m.parenthetical = some p ∧ Token.occursIn p = true)
  | .text _ | .breaker _ | .anchor _ | .use _ => True

theorem Reads.enclosing (h : Reads opening ordinal body segments n) : ∀ s ∈ allParts segments, s.Enclosing := by
  induction h with
  | done => simp
  | char _ _ ih =>
    intro s hs
    rcases mem_allParts_consChar hs with ⟨t, rfl⟩ | hs
    · trivial
    · exact ih s hs
  | mention _ hp _ ih =>
    refine List.forall_mem_cons.mpr ⟨⟨.nil, ?_⟩, ih⟩
    simpa using hp
  | @nested _ _ _ _ _ _ _ _ p _ inner _ _ hp hi _ ihi ih =>
    have hne : inner ≠ [] := by
      refine hi.ne_nil ?_
      rintro rfl
      exact absurd hp (by decide)
    simp only [allParts_cons, parts, List.cons_append, List.forall_mem_cons, List.forall_mem_append]
    exact ⟨⟨hi.spaced, by simp [hne, hp]⟩, ihi, ih⟩
  | breaker _ _ ih => exact List.forall_mem_cons.mpr ⟨trivial, ih⟩
  | reference _ _ ih =>
    split <;> exact List.forall_mem_cons.mpr ⟨trivial, ih⟩

/-! ## Counting -/

/-- The place of a mention or breaker in its note. -/
def ordinal? : Segment → Option Nat
  | .mention m _ => some m.ordinal
  | .breaker ordinal => some ordinal
  | .text _ | .anchor _ | .use _ => none

/-- The places of the mentions and breakers in reading order, a mention before the contents of its parenthetical. -/
def ordinals (segments : List Segment) : List Nat := (allParts segments).filterMap ordinal?

theorem ordinals_cons (s : Segment) (segments : List Segment) :
    ordinals (s :: segments) = s.parts.filterMap ordinal? ++ ordinals segments := List.filterMap_append

theorem ordinals_consChar (c : Char) (segments : List Segment) : ordinals (consChar c segments) = ordinals segments := by
  unfold consChar
  split <;> rfl

/-- Counting on from where another count ends. -/
theorem range'_append_of_le {a b c : Nat} (hab : a ≤ b) (hbc : b ≤ c) :
    List.range' a (b - a) ++ List.range' b (c - b) = List.range' a (c - a) := by
  obtain ⟨k, rfl⟩ := Nat.exists_eq_add_of_le hab
  obtain ⟨l, rfl⟩ := Nat.exists_eq_add_of_le hbc
  have hk : a + k - a = k := by omega
  have hl : a + k + l - (a + k) = l := by omega
  have hkl : a + k + l - a = k + l := by omega
  rw [hk, hl, hkl, List.range'_append_1]

/-- **Mentions and breakers are counted on** from the free ordinal to the next one, at every depth. -/
theorem Reads.ordinals (h : Reads opening ordinal body segments n) :
    ordinal ≤ n ∧ Segment.ordinals segments = List.range' ordinal (n - ordinal) := by
  have hcount {a b : Nat} {ks : List Nat} (h : a + 1 ≤ b ∧ ks = List.range' (a + 1) (b - (a + 1))) :
      a ≤ b ∧ a :: ks = List.range' a (b - a) := by
    obtain ⟨hle, rfl⟩ := h
    refine ⟨by omega, ?_⟩
    rw [← range'_append_of_le (Nat.le_add_right a 1) hle, Nat.add_sub_cancel_left]
    rfl
  induction h with
  | done => exact ⟨Nat.le_refl _, by simp [Segment.ordinals]⟩
  | char _ _ ih => rwa [ordinals_consChar]
  | mention _ _ _ ih => exact hcount ih
  | @nested _ ordinal m n _ _ _ _ _ _ inner segments _ _ _ _ ihi ih =>
    obtain ⟨hle, hinner⟩ := ihi
    obtain ⟨hle', hsegments⟩ := ih
    have happend : Segment.ordinals inner ++ Segment.ordinals segments = List.range' (ordinal + 1) (n - (ordinal + 1)) := by
      rw [hinner, hsegments, range'_append_of_le hle hle']
    have hall := hcount ⟨Nat.le_trans hle hle', happend⟩
    refine ⟨hall.1, ?_⟩
    rw [← hall.2, ordinals_cons]
    rfl
  | breaker _ _ ih => exact hcount ih
  | reference _ _ ih =>
    split <;> exact ih

/-! ## Marking -/

theorem markAll_eq_map (segments : List Segment) : markAll segments = segments.map markString := by
  induction segments with
  | nil => rfl
  | cons s rest ih => rw [markAll, ih, List.map_cons]

@[simp] theorem isText_markString (s : Segment) : s.markString.isText = s.isText := by cases s <;> rfl

@[simp] theorem ordinal?_markString (s : Segment) : s.markString.ordinal? = s.ordinal? := by cases s <;> rfl

theorem mem_of_text_markAll {t : Text} {segments : List Segment} (h : .text t ∈ segments.map markString) :
    .text t ∈ segments := by
  obtain ⟨s, hs, he⟩ := List.mem_map.mp h
  cases s <;> cases he
  exact hs

theorem Spaced.markAll {segments : List Segment} (h : Spaced segments) : Spaced (markAll segments) := by
  rw [markAll_eq_map]
  refine ⟨fun t ht => h.written t (mem_of_text_markAll ht), ?_⟩
  rw [List.isChain_map]
  simpa using h.apart

theorem Enclosing.markString {s : Segment} (h : s.Enclosing) : s.markString.Enclosing := by
  cases s with
  | mention m inner =>
    obtain ⟨hspaced, hiff⟩ := h
    refine ⟨hspaced.markAll, ?_⟩
    rw [markAll_eq_map, Ne, List.map_eq_nil_iff]
    exact hiff
  | text | breaker | anchor | use => exact h

theorem ordinals_markAll (segments : List Segment) : ordinals (markAll segments) = ordinals segments := by
  simp [ordinals, allParts_markAll, List.filterMap_map]

end Segment

/-! ## Notes -/

/-- **A note in good order**, at every depth. -/
structure Note.Orderly (n : Note) : Prop where
  /-- Texts are not empty, and no two stand side by side. -/
  spaced : Segment.Spaced n.segments
  /-- So it is in a parenthetical, which has segments just where it holds tokens. -/
  enclosing : ∀ m inner, .mention m inner ∈ Segment.allParts n.segments →
    Segment.Spaced inner ∧ (inner ≠ [] ↔ ∃ p, m.parenthetical = some p ∧ Token.occursIn p = true)
  /-- No token opens in a text. -/
  plain : ∀ t, .text t ∈ Segment.allParts n.segments → Token.occursIn t = false
  /-- An anchor comes first, and is the only one. -/
  anchored : ∀ ref, .anchor ref ∈ Segment.allParts n.segments →
    ∃ rest, n.segments = .anchor ref :: rest ∧ ∀ ref', .anchor ref' ∉ Segment.allParts rest
  /-- The mentions and breakers are counted from zero. -/
  counted : Segment.ordinals n.segments = List.range (Segment.ordinals n.segments).length
  /-- Mentions are marked where there are several. -/
  marked : ∀ m ∈ n.mentions, m.inString = true ↔ 2 ≤ n.mentions.length

/-- **Every note that is read is in good order.** -/
theorem Note.orderly_of_read {position number : Int} {body : Text} {n : Note} (h : read position number body = .ok n) :
    n.Orderly := by
  obtain ⟨segments, next, hreads, hs⟩ := exists_reads h
  have hspaced : Segment.Spaced n.segments := by
    rcases hs with hs | hs
    · rw [hs]
      exact hreads.spaced
    · rw [hs]
      exact hreads.spaced.markAll
  have henclosing : ∀ s ∈ Segment.allParts n.segments, s.Enclosing := by
    rcases hs with hs | hs
    · rw [hs]
      exact hreads.enclosing
    · rw [hs, Segment.allParts_markAll]
      intro s hmem
      obtain ⟨s', hs', rfl⟩ := List.mem_map.mp hmem
      exact (hreads.enclosing s' hs').markString
  have hordinals : Segment.ordinals n.segments = List.range next := by
    have hcount := hreads.ordinals.2
    rw [Nat.sub_zero, ← List.range_eq_range'] at hcount
    rcases hs with hs | hs
    · rw [hs, hcount]
    · rw [hs, Segment.ordinals_markAll, hcount]
  refine ⟨hspaced, fun m inner => henclosing (.mention m inner), fun t => clean_of_read h (.text t),
    fun ref => anchor_of_read h, ?_, fun m hm => ?_⟩
  · rw [hordinals, List.length_range]
  · have hpos := List.length_pos_of_mem hm
    rw [inString_iff h m hm]
    omega

/-- A note with an anchor, two mentions, one of them in a parenthetical, and a breaker. -/
theorem Note.orderly_of_read_nested : ∃ n,
    read 1 1 " [?here] See [@a] at 3 (quoting [@b] 5 [$] and so on). More." = .ok n ∧ n.Orderly ∧
      Segment.ordinals n.segments = [0, 1, 2] := by
  obtain ⟨n, hn, hordinals⟩ := Except.exists_ok_that (p := fun n => decide (Segment.ordinals n.segments = [0, 1, 2]))
    (x := read 1 1 " [?here] See [@a] at 3 (quoting [@b] 5 [$] and so on). More.") (by decide +kernel)
  exact ⟨n, hn, orderly_of_read hn, of_decide_eq_true hordinals⟩

end Footcite
