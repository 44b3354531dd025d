import Footcite.Proofs.Note.Parts
import Footcite.Proofs.Text.Brackets
import Footcite.Proofs.Text.Ends

/-!
# Openings of tokens

A token opens where a mark comes right after a square bracket (`Token.opensIn`). So a body in which no token opens is a
single text (`Note.read_plain`), and the texts of a note that is read open no token by themselves
(`Note.clean_of_read`). Put together they can open one, where breakers alone stand between a text that ends in a bracket
and one that begins with a mark (`Segment.seam`).
-/

namespace Footcite

/-! ## Texts -/

namespace Token

/-- Whether a token opens in the text; the flag says that an opening bracket comes right before it. -/
def opensIn (bracket : Bool) : Text → Bool
  | [] => false
  | c :: t => (bracket && isMark c) || opensIn (c = '[') t

variable {bracket : Bool} {t u : Text}

/-- Where a token opens, in the text itself or at its first character. -/
theorem opensIn_eq (bracket : Bool) (t : Text) : opensIn bracket t = (bracket && t.head?.any isMark || occursIn t) := by
  induction t generalizing bracket with
  | nil => cases bracket <;> rfl
  | cons c t ih =>
    have hfront : (decide (c = '[') && t.head?.any isMark) = ("[@".toList.isPrefixOf (c :: t) ||
        "[$".toList.isPrefixOf (c :: t) || "[?".toList.isPrefixOf (c :: t)) := by
      cases t with
      | nil => simp [List.isPrefixOf]
      | cons d t =>
        by_cases hc : c = '[' <;> simp [hc, isMark, List.isPrefixOf, Bool.beq_eq_decide_eq, eq_comm]
    rw [opensIn, ih, hfront]
    simp only [List.head?_cons, Option.any_some, occursIn, Text.holds]
    cases bracket <;> cases isMark c <;> simp [Bool.or_assoc, Bool.or_left_comm]

/-- A token occurs in a text that no bracket comes before where one opens. -/
theorem occursIn_eq (t : Text) : occursIn t = opensIn false t := by
  rw [opensIn_eq, Bool.false_and, Bool.false_or]

theorem opensIn_append (t u : Text) :
    opensIn bracket (t ++ u) = (opensIn bracket t || opensIn (Text.endsIn '[' bracket t) u) := by
  induction t generalizing bracket with
  | nil => rfl
  | cons c t ih => rw [List.cons_append, opensIn, opensIn, ih, Text.endsIn_cons, Bool.or_assoc]

/-- **A text that opens no token**, by itself or with whatever comes before and after it. -/
structure Inert (t : Text) : Prop where
  opens : opensIn true t = false
  ends : Text.endsIn '[' true t = false

namespace Inert

theorem ne_nil (h : Inert t) : t ≠ [] := by
  rintro rfl
  exact absurd h.ends (by decide)

theorem opensIn_eq_false (h : Inert t) : opensIn bracket t = false := by
  have hopens := h.opens
  rw [opensIn_eq] at hopens ⊢
  cases bracket <;> simp_all

theorem endsIn_eq_false (h : Inert t) : Text.endsIn '[' bracket t = false := by
  have hends := h.ends
  rw [Text.endsIn_eq_of_ne_nil h.ne_nil] at hends ⊢
  exact hends

/-- What comes after such a text comes after no bracket. -/
theorem opensIn_append (h : Inert t) (u : Text) : opensIn bracket (t ++ u) = opensIn false u := by
  rw [Token.opensIn_append, h.opensIn_eq_false, h.endsIn_eq_false, Bool.false_or]

theorem append (ht : Inert t) (hu : Inert u) : Inert (t ++ u) where
  opens := by rw [ht.opensIn_append, hu.opensIn_eq_false]
  ends := by rw [Text.endsIn_append, hu.endsIn_eq_false]

/-- Without brackets and marks a text opens no token. -/
theorem of_free (ht : t ≠ []) (h : ∀ c ∈ t, c ≠ '[' ∧ isMark c = false) : Inert t := by
  have hopens : ∀ {u : Text} {bracket : Bool}, (∀ c ∈ u, c ≠ '[' ∧ isMark c = false) → opensIn bracket u = false := by
    intro u
    induction u with
    | nil => exact fun _ => rfl
    | cons c u ih =>
      intro bracket hu
      obtain ⟨⟨-, hmark⟩, hu⟩ := List.forall_mem_cons.mp hu
      rw [opensIn, hmark, Bool.and_false, Bool.false_or, ih hu]
  refine ⟨hopens h, ?_⟩
  rw [Text.endsIn_eq_of_ne_nil ht, Text.endsIn_false]
  intro hlast
  exact (h '[' (List.mem_of_getLast? hlast)).1 rfl

/-- Characters of a class that holds no bracket and no mark. -/
theorem of_all {p : Char → Bool} (hp : ['[', '@', '$', '?'].any p = false) (ht : t ≠ [])
    (h : ∀ c ∈ t, p c = true) : Inert t := by
  rw [List.any_eq_false] at hp
  refine of_free ht fun c hc => ?_
  have hpc := h c hc
  constructor
  · rintro rfl
    simp [hp] at hpc
  · by_contra hmark
    simp only [isMark, Bool.not_eq_false, Bool.or_eq_true, decide_eq_true_eq] at hmark
    rcases hmark with (rfl | rfl) | rfl <;> simp [hp] at hpc

theorem of_blank (ht : t ≠ []) (h : t.blank = true) : Inert t :=
  of_all (p := isBlank) (by decide) ht (List.all_eq_true.mp h)

/-- A balanced text that begins with no mark and holds no opening. -/
theorem of_balanced (ht : t ≠ []) (hb : square.Balanced t) (ho : occursIn t = false)
    (hmark : t.head?.any isMark = false) : Inert t := by
  refine ⟨by rw [opensIn_eq, ho, hmark]; rfl, ?_⟩
  rw [Text.endsIn_eq_of_ne_nil ht, Text.endsIn_false]
  intro hlast
  -- Before a bracket at the end as many are closed as opened, and it is closed nowhere.
  obtain ⟨u, rfl⟩ := List.getLast?_eq_some_iff.mp hlast
  obtain ⟨hfront, hcount⟩ := hb
  have := hfront u (List.prefix_append u ['['])
  simp [square] at this hcount
  omega

end Inert

/-- Blanks at the ends open no token. -/
theorem occursIn_trim (t : Text) : occursIn t.trim = occursIn t := by
  obtain ⟨lead, trail, ht, hlead, htrail⟩ := Text.exists_trim t
  have hleft (u : Text) : occursIn (lead ++ u) = occursIn u := by
    by_cases h : lead = []
    · rw [h, List.nil_append]
    · rw [occursIn_eq, (Inert.of_blank h hlead).opensIn_append, occursIn_eq]
  have hright (u : Text) : occursIn (u ++ trail) = occursIn u := by
    by_cases h : trail = []
    · rw [h, List.append_nil]
    · rw [occursIn_eq, opensIn_append, (Inert.of_blank h htrail).opensIn_eq_false, Bool.or_false, occursIn_eq]
  conv_rhs => rw [ht]
  rw [hright, hleft]

/-- A text in parentheses opens a token only if it does so by itself. -/
theorem inert_parentheses (h : occursIn t = false) : Inert (" (" ++ t ++ ")") := by
  have hopen : Inert " (" := ⟨rfl, rfl⟩
  have hclose : Inert ")" := ⟨rfl, rfl⟩
  rw [List.append_assoc]
  refine ⟨?_, ?_⟩
  · rw [hopen.opensIn_append, Token.opensIn_append, ← occursIn_eq, h, hclose.opensIn_eq_false]
    rfl
  · rw [Text.endsIn_append, Text.endsIn_append, hclose.endsIn_eq_false]

end Token

/-! ## What is read -/

namespace Segment

/-- No token opens in the text of the segment, or in its parenthetical if that is not cut in turn. -/
def Clean : Segment → Prop
  | .text t => Token.occursIn t = false
  | .mention m [] => ∀ p, m.parenthetical = some p → Token.occursIn p = false
  | .mention _ (_ :: _) | .breaker _ | .anchor _ | .use _ => True

theorem Clean.markString {s : Segment} (h : s.Clean) : s.markString.Clean := by
  cases s with
  | mention m inner => cases inner <;> exact h
  | text | breaker | anchor | use => exact h

variable {opening : Bool} {ordinal n : Nat} {body : Text} {segments : List Segment}

/-- A text at the front begins as the body does. -/
theorem Reads.head?_text {t : Text} {rest : List Segment} (h : Reads opening ordinal body (.text t :: rest) n) :
    t.head? = body.head? := by
  generalize hs : (.text t :: rest : List Segment) = segments at h
  cases h with
  | done | mention | nested | breaker => cases hs
  | reference => split at hs <;> cases hs
  | @char _ _ _ c d _ _ segments ht _ =>
    obtain rfl : c = d := by
      cases Token.heads_of_read ht
      rfl
    unfold consChar at hs
    split at hs <;> cases hs <;> rfl

/-- **No token opens in the texts that are read**, at any depth. -/
theorem Reads.clean (h : Reads opening ordinal body segments n) : ∀ s ∈ allParts segments, s.Clean := by
  induction h with
  | done => simp
  | @char _ _ _ c d rest r segments ht hr ih =>
    have hchar : ∀ mark u, d = '[' → r = mark :: u → Token.isMark mark = false := by
      cases Token.heads_of_read ht with
      | char h => exact h
    have hsingle : Token.occursIn [d] = false := by simp [Token.occursIn_eq, Token.opensIn]
    unfold consChar
    split
    · next t rest' =>
      obtain ⟨hclean, ih⟩ := List.forall_mem_cons.mp ih
      refine List.forall_mem_cons.mpr ⟨?_, ih⟩
      show Token.occursIn (d :: t) = false
      rw [Token.occursIn_eq, Token.opensIn, Token.opensIn_eq, hr.head?_text, show Token.occursIn t = false from hclean]
      cases r with
      | nil => simp
      | cons mark u =>
        by_cases hd : d = '['
        · simp [hchar mark u hd rfl]
        · simp [hd]
    · exact ih
    · exact List.forall_mem_cons.mpr ⟨hsingle, ih⟩
  | mention _ hp _ ih => exact List.forall_mem_cons.mpr ⟨hp, ih⟩
  | @nested _ _ _ _ _ _ _ _ p _ inner _ _ hp hi _ ihi ih =>
    simp only [allParts_cons, parts, List.cons_append, List.forall_mem_cons, List.forall_mem_append]
    refine ⟨?_, ihi, ih⟩
    cases inner with
    | nil =>
      refine absurd rfl (hi.ne_nil ?_)
      rintro rfl
      exact absurd hp (by decide)
    | cons => trivial
  | breaker _ _ ih => exact List.forall_mem_cons.mpr ⟨trivial, ih⟩
  | reference _ _ ih =>
    split <;> exact List.forall_mem_cons.mpr ⟨trivial, ih⟩

end Segment

theorem Note.clean_of_read {position number : Int} {body : Text} {n : Note} (h : read position number body = .ok n) :
    ∀ s ∈ Segment.allParts n.segments, s.Clean := by
  obtain ⟨segments, next, hr, hs | hs⟩ := exists_reads h
  · rw [hs]
    exact hr.clean
  · rw [hs, Segment.allParts_markAll]
    intro s hs
    obtain ⟨s', hs', rfl⟩ := List.mem_map.mp hs
    exact (hr.clean s' hs').markString

/-! ## Plain bodies -/

namespace Segment

/-- The segments of a body without tokens. -/
def plain : Text → List Segment
  | [] => []
  | c :: t => [.text (c :: t)]

theorem readFrom_plain {note : Int} : ∀ {opening : Bool} {ordinal : Nat} {body : Text}, Token.occursIn body = false →
    readFrom note opening ordinal body = .ok (plain body, ordinal)
  | _, _, [], _ => by rw [readFrom]; rfl
  | opening, ordinal, c :: rest, h => by
    rw [Token.occursIn_eq, Token.opensIn, Bool.false_and, Bool.false_or, Token.opensIn_eq, Bool.or_eq_false_iff] at h
    obtain ⟨hfront, hrest⟩ := h
    have hread : Token.read c rest = .ok (.char c, rest) := by
      unfold Token.read
      split
      · rw [if_neg]
        simpa using hfront
      · rfl
    rw [readFrom]
    split <;> rename_i h' <;> rw [hread] at h' <;> cases h'
    rw [readFrom_plain hrest]
    cases rest <;> rfl

end Segment

/-- **A body without tokens is a single text.** -/
theorem Note.read_plain {position number : Int} {body : Text} (h : Token.occursIn body = false) :
    read position number body = .ok ⟨position, number, Segment.plain body⟩ := by
  rw [read, Segment.readFrom_plain h]
  cases body <;> rfl

/-! ## Seams -/

namespace Segment

/-- Whether what has been written of a note ends in an opening bracket after the segment, if it did so before. -/
def endsOpen (bracket : Bool) : Segment → Bool
  | .text t => Text.endsIn '[' bracket t
  | .breaker _ | .anchor _ => bracket
  | .mention _ _ | .use _ => false

mutual

/-- Whether a mark comes after an opening bracket where the segment begins, or inside its parenthetical. -/
def marked (bracket : Bool) : Segment → Bool
  | .text t => bracket && t.head?.any Token.isMark
  | .mention _ inner => seam false inner
  | .breaker _ | .anchor _ | .use _ => false

/-- **A seam**: breakers alone stand between a text that ends in an opening bracket and one that begins with a mark. The
flag says that such a bracket comes before. -/
def seam (bracket : Bool) : List Segment → Bool
  | [] => false
  | s :: rest => s.marked bracket || seam (s.endsOpen bracket) rest

end

end Segment

end Footcite
