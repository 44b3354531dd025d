import Footcite.Citation.SmallCaps
import Footcite.Proofs.Citation.Asterisks

/-!
# Small caps in a finished text

Small caps are set in a finished text, where bold spans are to be found again among the asterisks of italics. They are
found if no two asterisks stand side by side in plain text, none stands before a bold span, and no bold span is empty
(`Styled.settled`, `Styled.smallCaps_markdown`). Spans that are put together keep to this when each part ends in no
asterisk (`Styled.Tidy`), or plain text comes after it (`Styled.Loose.append_plain`).
-/

namespace Footcite

/-! ## Finding bold spans -/

namespace Text

variable {c : Char} {t rest : Text} {b b' : Bool}

/-- A character before which no bold span begins stays. -/
theorem smallCaps_cons (h : c = '*' → ∀ u, t ≠ '*' :: u) : smallCaps (c :: t) = c :: smallCaps t := by
  rw [smallCaps.eq_def]
  split
  · contradiction
  · next heq =>
    obtain ⟨rfl, rfl⟩ := List.cons.inj heq
    exact absurd rfl (h rfl _)
  · next heq =>
    obtain ⟨rfl, rfl⟩ := List.cons.inj heq
    rfl

/-- A bold span ends at the first asterisks after it. -/
theorem boldEnd_append (h : Unstarred t) (rest : Text) : boldEnd (t ++ ("**" ++ rest)) = some (t, rest) := by
  induction t with
  | nil => rfl
  | cons c t ih =>
    obtain ⟨⟨hstar, hline⟩, ht⟩ := List.forall_mem_cons.mp h
    rw [List.cons_append, boldEnd.eq_def]
    split
    · next heq => exact absurd (List.cons.inj heq).1 hstar
    · next heq =>
      obtain ⟨rfl, rfl⟩ := List.cons.inj heq
      rw [if_neg hline, ih ht]
      rfl
    · contradiction

/-- **A bold span is found.** -/
theorem smallCaps_bold (hne : t ≠ []) (h : Unstarred t) (rest : Text) :
    smallCaps ((Span.bold t).markdown ++ rest) = smallCapsSpan t ++ smallCaps rest := by
  obtain ⟨c, t, rfl⟩ := List.exists_cons_of_ne_nil hne
  obtain ⟨⟨-, hline⟩, ht⟩ := List.forall_mem_cons.mp h
  have hspan : boldSpan (c :: (t ++ ("**" ++ rest))) = some (c :: t, rest) := by
    rw [boldSpan, if_neg hline, boldEnd_append ht]
    rfl
  have htext : (Span.bold (c :: t)).markdown ++ rest = '*' :: '*' :: c :: (t ++ ("**" ++ rest)) := by
    simp [Span.markdown]
  rw [htext, smallCaps.eq_def]
  simp only
  split
  · next heq =>
    rw [hspan] at heq
    cases heq
    rfl
  · next heq =>
    rw [hspan] at heq
    cases heq

/-- In plain text no bold span begins. -/
theorem smallCaps_plain (h : stars b t = some b') (hrest : b' = true → ∀ u, rest ≠ '*' :: u) :
    smallCaps (t ++ rest) = t ++ smallCaps rest := by
  induction t generalizing b with
  | nil => rfl
  | cons c t ih =>
    obtain ⟨b₁, ht, hstar⟩ := stars_of_cons h
    have hnext : c = '*' → ∀ u, t ++ rest ≠ '*' :: u := by
      rintro rfl u heq
      cases t with
      | nil =>
        cases b with
        | true => cases h
        | false =>
          cases h
          exact hrest rfl u heq
      | cons d t =>
        obtain ⟨rfl, -⟩ := List.cons.inj heq
        exact hstar rfl t rfl
    rw [List.cons_append, smallCaps_cons hnext, ih ht]
    rfl

end Text

namespace Styled

open Text

variable {s s' : Styled} {t u : Text} {b b' : Bool}

/-- Whether spans end in an asterisk; nothing if two stand side by side in their plain text, or one before a bold span,
or if bold text has an asterisk or a line break. The flag says whether an asterisk comes just before the spans. -/
def settled : Bool → Styled → Option Bool
  | b, [] => some b
  | b, .plain t :: s => (stars b t).bind (settled · s)
  | b, .bold t :: s => if b = false ∧ Unstarred t then settled false s else none

theorem settled_append (b : Bool) (s s' : Styled) : settled b (s ++ s') = (settled b s).bind (settled · s') := by
  induction s generalizing b with
  | nil => rfl
  | cons x s ih =>
    cases x with
    | plain t =>
      simp only [List.cons_append, settled]
      cases stars b t with
      | none => rfl
      | some b₁ => exact ih b₁
    | bold t =>
      simp only [List.cons_append, settled]
      split
      · exact ih false
      · rfl

/-- After an asterisk no other comes. -/
theorem markdown_ne_star (h : settled true s = some b) (u : Text) : s.markdown ≠ '*' :: u := by
  induction s with
  | nil => exact fun heq => by cases heq
  | cons x s ih =>
    cases x with
    | bold t => simp [settled] at h
    | plain t =>
      cases t with
      | nil => exact ih h
      | cons c t =>
        intro heq
        obtain ⟨rfl, -⟩ := List.cons.inj heq
        cases h

/-- A text in the small-caps style has no asterisk in it or before its end. -/
theorem stars_smallCapsSpan (h : Unstarred t) (b : Bool) : stars b (smallCapsSpan t) = some false := by
  have hfront : Unstarred "[" := by decide
  have hstyle : Unstarred ("]\x7bcustom-style=\"" ++ smallCapsStyleName ++ "\"\x7d") := by decide
  have hspan : Unstarred (smallCapsSpan t) := by
    have := (hfront.append h).append hstyle
    simpa [smallCapsSpan] using this
  rw [stars_of_unstarred hspan]
  rfl

/-- **Small caps are set in bold spans and change nothing else**, and leave no double asterisk. -/
theorem smallCaps_markdown (h : settled b s = some b') (hbold : Span.bold [] ∉ s) :
    Text.smallCaps s.markdown = s.smallCaps ∧ stars b s.smallCaps = some b' := by
  induction s generalizing b with
  | nil =>
    refine ⟨?_, h⟩
    show Text.smallCaps [] = []
    rw [Text.smallCaps.eq_def]
  | cons x s ih =>
    obtain ⟨hx, hrest⟩ := not_or.mp (mt List.mem_cons.mpr hbold)
    cases x with
    | plain t =>
      obtain ⟨b₁, ht, hs⟩ := Option.bind_eq_some_iff.mp h
      obtain ⟨hcaps, hstars⟩ := ih hs hrest
      have hnext : b₁ = true → ∀ u, markdown s ≠ '*' :: u := by
        rintro rfl
        exact markdown_ne_star hs
      constructor
      · show Text.smallCaps (t ++ markdown s) = t ++ smallCaps s
        rw [smallCaps_plain ht hnext, hcaps]
      · show stars b (t ++ smallCaps s) = some b'
        rw [stars_append, ht]
        exact hstars
    | bold t =>
      have hne : t ≠ [] := by
        rintro rfl
        exact hx rfl
      simp only [settled] at h
      split at h
      · next hfree =>
        obtain ⟨hcaps, hstars⟩ := ih h hrest
        constructor
        · show Text.smallCaps ((Span.bold t).markdown ++ markdown s) = smallCapsSpan t ++ smallCaps s
          rw [smallCaps_bold hne hfree.2, hcaps]
        · show stars b (smallCapsSpan t ++ smallCaps s) = some b'
          rw [stars_append, stars_smallCapsSpan hfree.2]
          exact hstars
      · cases h

/-! ## Composing spans -/

/-- Spans in which asterisks stand apart, with none at the end. -/
def Tidy (s : Styled) : Prop := settled false s = some false

/-- Spans in which asterisks stand apart; there may be one at the end. -/
def Loose (s : Styled) : Prop := ∃ b, settled false s = some b

/-- A text that may come after an asterisk, in which asterisks stand apart, with none at the end. -/
def Fresh (t : Text) : Prop := ∀ b, stars b t = some false

instance (t : Text) : Decidable (Fresh t) := inferInstanceAs (Decidable (∀ _, _))

theorem settled_plain (b : Bool) (t : Text) : settled b (plain t) = stars b t := by
  show (stars b t).bind some = stars b t
  exact Option.bind_fun_some _

theorem Tidy.loose (h : Tidy s) : Loose s := ⟨false, h⟩

theorem Tidy.append (h : Tidy s) (h' : Tidy s') : Tidy (s ++ s') := by
  rw [Tidy, settled_append, h]
  exact h'

theorem Tidy.append_loose (h : Tidy s) (h' : Loose s') : Loose (s ++ s') := by
  obtain ⟨b, h'⟩ := h'
  refine ⟨b, ?_⟩
  rw [settled_append, h]
  exact h'

/-- Only plain text may come after an asterisk. -/
theorem Loose.append_plain (h : Loose s) (ht : Fresh t) : Tidy (s ++ plain t) := by
  obtain ⟨b, h⟩ := h
  rw [Tidy, settled_append, h, Option.bind_some, settled_plain]
  exact ht b

theorem tidy_nil : Tidy [] := rfl

theorem tidy_plain (h : Unstarred t) : Tidy (plain t) := by
  rw [Tidy, settled_plain, stars_of_unstarred h, Bool.and_false]

theorem tidy_bold (h : Unstarred t) : Tidy (bold t) := if_pos ⟨rfl, h⟩

theorem loose_plain (h : (stars false t).isSome = true) : Loose (plain t) := by
  obtain ⟨b, h⟩ := Option.isSome_iff_exists.mp h
  exact ⟨b, by rw [settled_plain, h]⟩

theorem tidy_plain_append (h : (stars false t).isSome = true) (hu : Fresh u) : Tidy (plain (t ++ u)) := by
  obtain ⟨b, h⟩ := Option.isSome_iff_exists.mp h
  rw [Tidy, settled_plain, stars_append, h, Option.bind_some, hu]

theorem fresh_of_unstarred (hne : t ≠ []) (h : Unstarred t) : Fresh t := by
  intro b
  rw [stars_of_unstarred h]
  cases t with
  | nil => exact absurd rfl hne
  | cons c t => rfl

theorem Fresh.append (ht : Fresh t) (hu : Unstarred u) : Fresh (t ++ u) := fun b => stars_append_unstarred (ht b) hu

end Styled

end Footcite
