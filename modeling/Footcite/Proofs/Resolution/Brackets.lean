import Footcite.Proofs.Note.Parts
import Footcite.Proofs.Note.Printed
import Footcite.Proofs.Resolution.Hereinafter
import Footcite.Proofs.Resolution.Pieces

/-!
# Brackets of a resolved note

The text of a note has the levels of square brackets that its body has, as long as its citations are balanced
(`Segment.Become.level_join`). Body and text are compared through the segments printed back: a token stands in brackets
of its own, a pincite holds none, and neither do blanks, empty parentheses and numerals.
-/

namespace Footcite

open Brackets

/-! ## Bodies and segments -/

theorem Text.level_withoutBlanks (t : Text) : square.level t.withoutBlanks = square.level t := by
  refine level_filter (fun c hc => ?_) t
  have hblank : isBlank c = true := by simpa using hc
  have := isBracket_eq_false (p := isBlank) (by decide) hblank
  constructor <;> rintro rfl <;> revert this <;> decide

/-- A text without brackets of any kind. -/
theorem level_of_isBracket {t : Text} (h : ∀ c ∈ t, isBracket c = false) : square.level t = some := by
  refine level_of_free fun c hc => ?_
  have := h c hc
  constructor <;> rintro rfl <;> revert this <;> decide

theorem Text.level_of_blank {t : Text} (h : t.blank = true) : square.level t = some :=
  level_of_isBracket (isBracket_of_blank h)

theorem Text.level_trim (t : Text) : square.level t.trim = square.level t := by
  rw [← level_withoutBlanks, withoutBlanks_trim, level_withoutBlanks]

theorem Text.level_withoutEmptyParentheses (t : Text) :
    square.level t.withoutEmptyParentheses = square.level t := by
  fun_induction Text.withoutEmptyParentheses t with
  | case1 => rfl
  | case2 c rest mention after h ih =>
    obtain ⟨blanks, hblanks, ht⟩ := mentionBeforeEmpty?_eq h
    have hempty : square.level ('(' :: (blanks ++ ")".toList)) = some := by
      refine level_append_of_eq (t := "(".toList) (by rfl) _ |>.trans ?_
      exact (level_append_of_eq (level_of_blank hblanks) _).trans (by rfl)
    rw [ht]
    refine level_append_congr rfl (ih.trans ?_)
    rw [← level_append_of_eq hempty after]
    simp
  | case3 c rest h ih => exact Brackets.level_cons_congr c ih

/-- **A body has the levels of its segments**, printed back. -/
theorem Note.level_of_read {position number : Int} {body : Text} {n : Note} (h : read position number body = .ok n) :
    square.level (Segment.printAll n.segments) = square.level body := by
  rw [← Text.level_withoutBlanks, Note.print_of_read h, Text.level_withoutBlanks, Text.level_withoutEmptyParentheses]

/-! ## Tokens -/

/-- A mention stands in brackets of its own. -/
theorem Mention.level_print {m : Mention} (hid : Token.isMentionId m.source = true)
    (hpin : ∀ c ∈ m.pincite.getD [], isBracket c = false) : square.level m.print = some := by
  have hsource : square.level ('@' :: m.source) = some :=
    level_of_free (by simpa using ⟨by decide, Token.ne_of_isMentionId hid⟩)
  have hbrackets := level_enclose (b := square) (by decide) hsource
  have hprint : m.print = square.opening :: ('@' :: m.source ++ [square.closing]) ++ m.pincite.getD [] := by
    simp [print, square]
  rw [hprint, level_append_of_eq hbrackets, level_of_isBracket hpin]

/-- So does a cross-reference. -/
theorem Segment.level_reference {ref : Text} (h : Token.isReferenceId ref = true) :
    square.level ("[?" ++ ref ++ "]") = some := by
  have hname : square.level ('?' :: ref) = some :=
    level_of_free (by simpa using ⟨by decide, Token.ne_of_isReferenceId h⟩)
  exact level_enclose (b := square) (by decide) hname

/-- A numeral holds no brackets. -/
theorem Numeral.level_ofInt (n : Int) : square.level (ofInt n) = some := by
  have hdigits (k : Nat) : ∀ c ∈ ofNat k, c ≠ square.opening ∧ c ≠ square.closing := by
    intro c hc
    have := Nat.isDigit_of_mem_toDigits (by decide) (by decide) hc
    constructor <;> rintro rfl <;> revert this <;> decide
  cases n with
  | ofNat k => exact level_of_free (hdigits k)
  | negSucc k => exact level_of_free (List.forall_mem_cons.mpr ⟨by decide, hdigits (k + 1)⟩)

/-! ## Pieces -/

/-- The words of a piece. -/
def Piece.words : Piece → Text
  | .text t => t
  | .cite d => d.text

/-- A full stop that is taken up changes no level. -/
theorem Piece.level_joinAfter (stop : Bool) (ps : List Piece) :
    square.level (Piece.joinAfter stop ps) = square.level (ps.flatMap Piece.words) := by
  fun_induction Piece.joinAfter stop ps with
  | case1 => rfl
  | case2 stop t rest ih =>
    rw [List.flatMap_cons]
    refine level_append_congr ?_ ih
    have hstop : square.level ('.' :: t) = square.level t := level_append_of_eq (t := ['.']) (by rfl) t
    split
    · exact hstop.symm
    · rfl
  | case3 stop t rest _ ih => exact level_append_congr rfl ih
  | case4 stop d rest ih => exact level_append_congr rfl ih

/-- **Pieces have the levels of the segments that they come of**, if each citation has those of its parenthetical. -/
theorem Segment.Become.level {library : Library} {anchors : Anchors} {n : Note} {segments : List Segment}
    {ps : List Piece} (h : Become library anchors n segments ps) (hs : ∀ s ∈ allParts segments, s.Sound)
    (hc : ∀ d, .cite d ∈ ps → square.level d.text = square.level (Text.inParentheses d.parenthetical)) :
    square.level (ps.flatMap Piece.words) = square.level (printAll segments) := by
  induction h with
  | done => rfl
  | text _ ih =>
    obtain ⟨-, hs⟩ := List.forall_mem_cons.mp hs
    exact level_append_congr rfl (ih hs fun d hd => hc d (List.mem_cons_of_mem _ hd))
  | @mention m d rest ps hd _ ih =>
    obtain ⟨⟨hid, hpin⟩, hs⟩ := List.forall_mem_cons.mp hs
    refine level_append_congr ?_ (ih hs fun d hd => hc d (List.mem_cons_of_mem _ hd))
    have hbare := level_append_of_eq (Mention.level_print hid hpin) (Text.inParentheses m.parenthetical)
    rw [Piece.words, hc d List.mem_cons_self, hd.parenthetical]
    exact hbare.symm
  | @nested m inner rest d qs ps hi hd _ _ ihi ih =>
    simp only [allParts_cons, parts, List.cons_append, List.forall_mem_cons, List.forall_mem_append] at hs
    obtain ⟨⟨hid, hpin⟩, hsi, hs⟩ := hs
    have hcite : square.level d.text = some := by
      rw [hc d List.mem_cons_self, hd.parenthetical]
      rfl
    have hinner := ihi hsi fun d hd => hc d (by simp [hd])
    have hrest := ih hs fun d hd => hc d (by simp [hd])
    have hopen : square.level " (" = square.level "(" := by rfl
    rw [printAll, print_nested m hi, Text.inParentheses, List.flatMap_cons, Piece.words, level_append_of_eq hcite,
      List.append_assoc, level_append_of_eq (Mention.level_print hid hpin), List.flatMap_cons, List.flatMap_append,
      List.flatMap_cons, List.append_assoc, List.append_assoc]
    exact level_append_congr hopen (level_append_congr hinner (level_append_congr rfl hrest))
  | breaker _ ih =>
    obtain ⟨-, hs⟩ := List.forall_mem_cons.mp hs
    exact (ih hs hc).trans (level_append_of_eq (by rfl) _).symm
  | anchor _ ih =>
    obtain ⟨href, hs⟩ := List.forall_mem_cons.mp hs
    exact (ih hs hc).trans (level_append_of_eq (level_reference href) _).symm
  | @use ref number rest ps _ _ ih =>
    obtain ⟨href, hs⟩ := List.forall_mem_cons.mp hs
    have hrest := ih hs fun d hd => hc d (List.mem_cons_of_mem _ hd)
    exact level_append_congr ((Numeral.level_ofInt number).trans (level_reference href).symm) hrest

/-- **The text of a note has the levels of its body.** -/
theorem Note.level_join {library : Library} {anchors : Anchors} {position number : Int} {body : Text} {n : Note}
    {ps : List Piece} (hn : Note.read position number body = .ok n)
    (h : Segment.Become library anchors n n.segments ps)
    (hc : ∀ d, .cite d ∈ ps → square.level d.text = square.level (Text.inParentheses d.parenthetical)) :
    square.level (Piece.join ps) = square.level body := by
  rw [Piece.join, Text.level_trim, Piece.level_joinAfter, h.level (Note.sound_of_read hn) hc, Note.level_of_read hn]

/-! ## Citations -/

/-- A citation is the one without its parenthetical, and the parenthetical after it. -/
theorem Source.cite_eq_ok {s : Source} {form : Form} {pincite parenthetical : Option Text} {k : Desk} {t : Text}
    (h : (outcome (s.cite form pincite parenthetical) k).1 = .ok t) :
    ∃ bare, (outcome (s.cite form pincite none) k).1 = .ok bare ∧
      t = bare ++ Styled.markdown (Source.parenthesis parenthetical) := by
  have hg : Gives (s.cite form pincite parenthetical) k t (outcome (s.cite form pincite parenthetical) k).2 :=
    Prod.ext h rfl
  simp only [cite, citeStyled, gives_map, gives_bind, gives_pure] at hg
  obtain ⟨spans, ⟨pin, k₁, hp, citation, k', hc, rfl, rfl⟩, rfl⟩ := hg
  have hbare : Gives (s.cite form pincite none) k (Styled.markdown (citation ++ parenthesis none)) _ :=
    gives_map.mpr ⟨_, gives_bind.mpr ⟨pin, k₁, hp, gives_bind.mpr ⟨citation, _, hc, gives_pure.mpr ⟨rfl, rfl⟩⟩⟩, rfl⟩
  refine ⟨Styled.markdown citation, ?_, by simp [Styled.markdown]⟩
  rw [show citation = citation ++ parenthesis none from (List.append_nil citation).symm]
  exact congrArg Prod.fst hbare

/-- A parenthetical after a citation has the levels of the text in parentheses. -/
theorem Source.level_parenthesis (parenthetical : Option Text) :
    square.level (Styled.markdown (Source.parenthesis parenthetical)) =
      square.level (Text.inParentheses parenthetical) := by
  cases parenthetical with
  | none => rfl
  | some p =>
    cases p with
    | nil => rfl
    | cons c p =>
      have hopen : square.level " (" = square.level "(" := by rfl
      have hmarkdown : Styled.markdown (parenthesis (some (c :: p))) = " (" ++ (c :: p) ++ ")" := List.append_nil _
      rw [hmarkdown, Text.inParentheses, List.append_assoc, List.append_assoc]
      exact level_append_congr hopen rfl

end Footcite
