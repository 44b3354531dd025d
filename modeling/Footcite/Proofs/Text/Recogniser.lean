import Footcite.Text.Recogniser
import Mathlib.Data.List.Basic

/-!
# Recognisers among brackets

A recogniser keeps inside brackets (`Recogniser.Inside`) when it takes neither a parenthesis nor a square bracket, and
does not look past an opening parenthesis: what it recognises before one it recognises in the text up to there alone.
Recognisers that do so make up recognisers that do so. For a repetition this needs that each turn takes at least one
character (`Recogniser.Shrinks`), so that the number of turns tried is no matter (`Recogniser.upTo_eq`).
-/

namespace Footcite

/-- A parenthesis or a square bracket. -/
def isBracket (c : Char) : Bool := "()[]".toList.contains c

/-- What holds of none of the brackets, each taken by itself, holds of no character that is one. -/
theorem isBracket_eq_false {p : Char → Bool} (h : ("()[]".toList.all fun c => !p c) = true) {c : Char}
    (hc : p c = true) : isBracket c = false := by
  cases hb : isBracket c with
  | false => rfl
  | true =>
    have hp := List.all_eq_true.mp h c (by simpa [isBracket] using hb)
    simp [hc] at hp

namespace Recogniser

/-- **A recogniser that keeps inside brackets.** -/
structure Inside (a : Recogniser) : Prop where
  /-- What is taken holds no brackets. -/
  takes : ∀ t, ∀ r ∈ a t, ∃ u : Text, t = u ++ r ∧ ∀ c ∈ u, isBracket c = false
  /-- What comes from an opening parenthesis on is no matter. -/
  stops : ∀ t v, a (t ++ '(' :: v) = (a t).map (· ++ '(' :: v)

/-- Each match takes at least one character. -/
def Shrinks (a : Recogniser) : Prop := ∀ t, ∀ r ∈ a t, r.length < t.length

variable {a b : Recogniser}

namespace Inside

/-- What is left is no longer. -/
theorem length_le (ha : Inside a) {t r : Text} (hr : r ∈ a t) : r.length ≤ t.length := by
  obtain ⟨u, rfl, _⟩ := ha.takes t r hr
  simp

theorem one {p : Char → Bool} (h : ("()[]".toList.all fun c => !p c) = true) : Inside (one p) := by
  constructor
  · intro t r hr
    cases t with
    | nil => simp [Recogniser.one] at hr
    | cons c rest =>
      by_cases hc : p c = true
      · simp only [Recogniser.one, if_pos hc, List.mem_singleton] at hr
        subst hr
        exact ⟨[c], rfl, by simpa using isBracket_eq_false h hc⟩
      · simp [Recogniser.one, hc] at hr
  · intro t v
    cases t with
    | nil =>
      have : p '(' = false := by simpa using List.all_eq_true.mp h '(' (by simp)
      simp [Recogniser.one, this]
    | cons c rest => by_cases hc : p c = true <;> simp [Recogniser.one, hc]

theorem word {ls : Text} (h : (ls.all fun l => "()[]".toList.all fun c => !sameLetter l c) = true) :
    Inside (word ls) := by
  induction ls with
  | nil =>
    refine ⟨fun t r hr => ⟨[], ?_, by simp⟩, fun t v => by simp [Recogniser.word]⟩
    simpa [Recogniser.word, eq_comm] using hr
  | cons l ls ih =>
    rw [List.all_cons, Bool.and_eq_true] at h
    have ih := ih h.2
    constructor
    · intro t r hr
      cases t with
      | nil => simp [Recogniser.word] at hr
      | cons c rest =>
        by_cases hc : sameLetter l c = true
        · rw [Recogniser.word, if_pos hc] at hr
          obtain ⟨u, rfl, hu⟩ := ih.takes rest r hr
          exact ⟨c :: u, rfl, List.forall_mem_cons.mpr ⟨isBracket_eq_false h.1 hc, hu⟩⟩
        · simp [Recogniser.word, hc] at hr
    · intro t v
      cases t with
      | nil =>
        have : sameLetter l '(' = false := by simpa using List.all_eq_true.mp h.1 '(' (by simp)
        simp [Recogniser.word, this]
      | cons c rest => by_cases hc : sameLetter l c = true <;> simp [Recogniser.word, hc, ih.stops]

/-- A look at the text is allowed when an opening parenthesis is to it as good as the end. -/
theorem ahead {p : Text → Bool} (h : ∀ t v, p (t ++ '(' :: v) = p t) : Inside (ahead p) := by
  constructor
  · intro t r hr
    refine ⟨[], ?_, by simp⟩
    by_cases hp : p t = true <;> simp_all [Recogniser.ahead]
  · intro t v
    by_cases hp : p t = true <;> simp [Recogniser.ahead, h, hp]

theorem next (ha : Inside a) (hb : Inside b) : Inside (a.next b) := by
  constructor
  · intro t r hr
    obtain ⟨s, hs, hrest⟩ := List.mem_flatMap.mp hr
    obtain ⟨u, rfl, hu⟩ := ha.takes t s hs
    obtain ⟨w, rfl, hw⟩ := hb.takes s r hrest
    refine ⟨u ++ w, by simp, fun c hc => ?_⟩
    exact (List.mem_append.mp hc).elim (hu c) (hw c)
  · intro t v
    simp only [Recogniser.next, ha.stops, List.flatMap_map, List.map_flatMap, hb.stops]

theorem or (ha : Inside a) (hb : Inside b) : Inside (a.or b) := by
  constructor
  · intro t r hr
    exact (List.mem_append.mp hr).elim (ha.takes t r) (hb.takes t r)
  · intro t v
    simp only [Recogniser.or, ha.stops, hb.stops, List.map_append]

/-- Nothing at all. -/
theorem nothing : Inside fun t => [t] := by
  refine ⟨fun t r hr => ⟨[], ?_, by simp⟩, fun t v => rfl⟩
  simpa [eq_comm] using hr

theorem optional (ha : Inside a) : Inside a.optional := ha.or nothing

theorem firstOf {alternatives : List Recogniser} (h : ∀ a ∈ alternatives, Inside a) :
    Inside (firstOf alternatives) := by
  constructor
  · intro t r hr
    obtain ⟨a, ha, hr⟩ := List.mem_flatMap.mp hr
    exact (h a ha).takes t r hr
  · intro t v
    simp only [Recogniser.firstOf, List.map_flatMap]
    exact List.flatMap_congr fun a ha => (h a ha).stops t v

theorem upTo (ha : Inside a) : ∀ n, Inside (upTo a n)
  | 0 => nothing
  | n + 1 => (ha.next (Inside.upTo ha n)).optional

end Inside

/-! ## Repetitions -/

/-- A repetition comes to the same for all numbers of turns that suffice for the text. -/
theorem upTo_eq (h : Shrinks a) : ∀ {n m : Nat} {t : Text}, t.length ≤ n → t.length ≤ m → upTo a n t = upTo a m t
  | 0, 0, _, _, _ => rfl
  | n + 1, m + 1, t, hn, hm => by
    have hturn : (a t).flatMap (upTo a n) = (a t).flatMap (upTo a m) := by
      refine List.flatMap_congr fun r hr => ?_
      have := h t r hr
      exact upTo_eq h (by omega) (by omega)
    simp only [upTo, optional, Recogniser.or, next, hturn]
  | 0, m + 1, t, hn, _ => by
    have hnone : a t = [] := List.eq_nil_iff_forall_not_mem.mpr fun r hr => by have := h t r hr; omega
    simp [upTo, optional, Recogniser.or, next, hnone]
  | n + 1, 0, t, _, hm => by
    have hnone : a t = [] := List.eq_nil_iff_forall_not_mem.mpr fun r hr => by have := h t r hr; omega
    simp [upTo, optional, Recogniser.or, next, hnone]

namespace Inside

theorem many (ha : Inside a) (hs : Shrinks a) : Inside a.many := by
  constructor
  · exact fun t => (ha.upTo t.length).takes t
  · intro t v
    simp only [Recogniser.many, (ha.upTo _).stops]
    rw [upTo_eq hs (n := (t ++ '(' :: v).length) (m := t.length) (by simp) (Nat.le_refl _)]

theorem many1 (ha : Inside a) (hs : Shrinks a) : Inside a.many1 := ha.next (ha.many hs)

end Inside

namespace Shrinks

theorem one {p : Char → Bool} : Shrinks (one p) := by
  intro t r hr
  cases t with
  | nil => simp [Recogniser.one] at hr
  | cons c rest =>
    simp only [Recogniser.one] at hr
    split at hr
    · rw [List.mem_singleton] at hr
      simp [hr]
    · simp at hr

theorem next_left (ha : Shrinks a) (hb : Inside b) : Shrinks (a.next b) := by
  intro t r hr
  obtain ⟨s, hs, hr⟩ := List.mem_flatMap.mp hr
  have := ha t s hs
  have := hb.length_le hr
  omega

theorem next_right (ha : Inside a) (hb : Shrinks b) : Shrinks (a.next b) := by
  intro t r hr
  obtain ⟨s, hs, hr⟩ := List.mem_flatMap.mp hr
  have := ha.length_le hs
  have := hb s r hr
  omega

theorem or (ha : Shrinks a) (hb : Shrinks b) : Shrinks (a.or b) :=
  fun t r hr => (List.mem_append.mp hr).elim (ha t r) (hb t r)

theorem many1 (ha : Inside a) (hs : Shrinks a) : Shrinks a.many1 := hs.next_left (ha.many hs)

end Shrinks

/-- Blanks are no brackets. -/
theorem Inside.blanks : Inside blanks := (Inside.one (by decide)).many Shrinks.one

theorem Inside.gap : Inside gap := (Inside.one (by decide)).many1 Shrinks.one

end Recogniser

end Footcite
