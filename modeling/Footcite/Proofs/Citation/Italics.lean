import Footcite.Citation.Title
import Footcite.Proofs.Text.Blanks
import Footcite.Proofs.Text.Ends
import Footcite.Proofs.Text.Replaced

/-!
# Italics turned over

An asterisk turns italics on and off. `Text.readItalics` reads which characters of a text are in italics, blanks apart,
on which italics do not show, and `Text.readMarks` reads a text with marks of a title in it, each mark turning italics
on or off as well. Each step of `Text.reverseItalics` moves marks over blanks only or writes another sign for them, so
it does not matter to this reading. So in a title whose marks alternate (`Text.marksAlternate`) italics and roman are
swapped (`Text.reverseItalics_swaps`).
-/

namespace Footcite.Text

variable {c : Char} {t u : Text}

/-! ## Reading -/

/-- What a text shows: its characters other than blanks, each with whether it is in italics, and whether the text ends
in italics. -/
abbrev Shown := List (Char × Bool) × Bool

/-- One more character shown at the front, if it is no blank. -/
def Shown.cons (c : Char) (italic : Bool) (s : Shown) : Shown := if isBlank c then s else ((c, italic) :: s.1, s.2)

/-- What a text shows in which each asterisk turns italics on or off. -/
def readItalics (italic : Bool) : Text → Shown
  | [] => ([], italic)
  | c :: t => if c = '*' then readItalics (!italic) t else .cons c italic (readItalics italic t)

/-- What a text shows in which each asterisk and each mark of a title turns italics on or off. -/
def readMarks (italic : Bool) : Text → Shown
  | [] => ([], italic)
  | '<' :: 'i' :: '>' :: t => readMarks (!italic) t
  | '<' :: '/' :: 'i' :: '>' :: t => readMarks (!italic) t
  | c :: t => if c = '*' then readMarks (!italic) t else .cons c italic (readMarks italic t)

/-- The characters of a title other than blanks and marks, each with whether it stands outside the spans. -/
def readTitle (outside : Bool) : Text → List (Char × Bool)
  | [] => []
  | '<' :: 'i' :: '>' :: t => readTitle false t
  | '<' :: '/' :: 'i' :: '>' :: t => readTitle true t
  | c :: t => if isBlank c then readTitle outside t else (c, outside) :: readTitle outside t

/-- **Opening and closing marks alternate** in the rest of a title, inside a span or outside, and the last span is
closed.
-/
def marksAlternate (inside : Bool) : Text → Bool
  | [] => !inside
  | '<' :: 'i' :: '>' :: t => !inside && marksAlternate true t
  | '<' :: '/' :: 'i' :: '>' :: t => inside && marksAlternate false t
  | _ :: t => marksAlternate inside t

/-! ## Marks -/

/-- A mark stands at the front of the text. -/
def Marked (t : Text) : Prop := italicsOpen <+: t ∨ italicsClose <+: t

instance (t : Text) : Decidable (Marked t) := inferInstanceAs (Decidable (_ ∨ _))

/-- **Taking a title apart** at its marks, and else by characters. The character after a closing mark may be taken off
with the mark. -/
theorem cutAtMarks {P : Text → Prop} (nil : P []) (opening : ∀ t, P t → P (italicsOpen ++ t))
    (closing : ∀ t, P t → (∀ c u, t = c :: u → P u) → P (italicsClose ++ t))
    (char : ∀ c t, ¬Marked (c :: t) → P t → P (c :: t)) : ∀ t, P t := by
  intro t
  induction hn : t.length using Nat.strongRecOn generalizing t with
  | ind n ih =>
    cases t with
    | nil => exact nil
    | cons c t =>
      by_cases hmark : Marked (c :: t)
      · rcases hmark with ⟨u, hu⟩ | ⟨u, hu⟩
        · have hshorter : u.length < n := by
            rw [← hn, ← hu, List.length_append]
            exact Nat.lt_add_of_pos_left (by decide)
          exact hu ▸ opening u (ih _ hshorter u rfl)
        · have hshorter : u.length < n := by
            rw [← hn, ← hu, List.length_append]
            exact Nat.lt_add_of_pos_left (by decide)
          refine hu ▸ closing u (ih _ hshorter u rfl) ?_
          rintro c v rfl
          exact ih _ ((Nat.lt_succ_self _).trans hshorter) v rfl
      · have hshorter : t.length < n := by
          rw [← hn]
          exact Nat.lt_succ_self _
        exact char c t hmark (ih _ hshorter t rfl)

/-- A mark begins with an angle bracket. -/
theorem Marked.head (h : Marked (c :: t)) : c = '<' := by
  rcases h with ⟨u, hu⟩ | ⟨u, hu⟩
  · exact (List.cons.inj hu).1.symm
  · exact (List.cons.inj hu).1.symm

theorem not_marked_of_isBlank (hc : isBlank c = true) (t : Text) : ¬Marked (c :: t) := by
  intro h
  rw [h.head] at hc
  exact absurd hc (by decide)

/-- A mark that begins in a text ends before an asterisk or another mark. -/
theorem not_marked_append {m : Text} (hm : m = ['*'] ∨ m = italicsClose) (h : ¬Marked (c :: t)) :
    ¬Marked (c :: (t ++ m)) := by
  have hclear : NeverBegins m italicsOpen.tail ∧ NeverBegins m italicsClose.tail := by
    rcases hm with rfl | rfl <;> decide
  rw [← List.append_nil m]
  rintro (hmark | hmark)
  · exact h (.inl (prefix_of_clear hclear.1 hmark))
  · exact h (.inr (prefix_of_clear hclear.2 hmark))

/-! ### What is done at a character that begins no mark -/

section Char

variable (h : ¬Marked (c :: t))
include h

theorem readMarks_char (italic : Bool) : readMarks italic (c :: t) =
    if c = '*' then readMarks (!italic) t else .cons c italic (readMarks italic t) := by
  rw [readMarks.eq_def]
  split
  · contradiction
  · next heq => exact absurd (.inl ⟨_, heq.symm⟩) h
  · next heq => exact absurd (.inr ⟨_, heq.symm⟩) h
  · next heq =>
    obtain ⟨rfl, rfl⟩ := List.cons.inj heq
    rfl

theorem readTitle_char (outside : Bool) : readTitle outside (c :: t) =
    if isBlank c then readTitle outside t else (c, outside) :: readTitle outside t := by
  rw [readTitle.eq_def]
  split
  · contradiction
  · next heq => exact absurd (.inl ⟨_, heq.symm⟩) h
  · next heq => exact absurd (.inr ⟨_, heq.symm⟩) h
  · next heq =>
    obtain ⟨rfl, rfl⟩ := List.cons.inj heq
    rfl

theorem marksAlternate_char (inside : Bool) : marksAlternate inside (c :: t) = marksAlternate inside t := by
  rw [marksAlternate.eq_def]
  split
  · contradiction
  · next heq => exact absurd (.inl ⟨_, heq.symm⟩) h
  · next heq => exact absurd (.inr ⟨_, heq.symm⟩) h
  · next heq =>
    obtain ⟨rfl, rfl⟩ := List.cons.inj heq
    rfl

theorem moveOpening_char (gap : Text) : moveOpening gap (c :: t) =
    if isBlank c then moveOpening (gap ++ [c]) t else gap ++ c :: moveOpening [] t := by
  rw [moveOpening.eq_def]
  split
  · contradiction
  · next heq => exact absurd (.inl ⟨_, heq.symm⟩) h
  · next heq =>
    obtain ⟨rfl, rfl⟩ := List.cons.inj heq
    rfl

theorem moveClosing_char : moveClosing (c :: t) = c :: moveClosing t := by
  rw [moveClosing.eq_def]
  split
  · contradiction
  · next heq => exact absurd (.inr ⟨_, heq.symm⟩) h
  · next heq =>
    obtain ⟨rfl, rfl⟩ := List.cons.inj heq
    rfl

theorem starMarks_char : starMarks (c :: t) = c :: starMarks t := by
  rw [starMarks.eq_def]
  split
  · contradiction
  · next heq => exact absurd (.inl ⟨_, heq.symm⟩) h
  · next heq => exact absurd (.inr ⟨_, heq.symm⟩) h
  · next heq =>
    obtain ⟨rfl, rfl⟩ := List.cons.inj heq
    rfl

end Char

/-! ### What is done at a mark -/

theorem readMarks_opening (italic : Bool) (t : Text) :
    readMarks italic (italicsOpen ++ t) = readMarks (!italic) t := rfl

theorem readMarks_closing (italic : Bool) (t : Text) :
    readMarks italic (italicsClose ++ t) = readMarks (!italic) t := rfl

theorem readMarks_star (italic : Bool) (t : Text) : readMarks italic ('*' :: t) = readMarks (!italic) t := rfl

theorem moveOpening_opening (gap t : Text) : moveOpening gap (italicsOpen ++ t) =
    if gap.isEmpty then italicsOpen ++ moveOpening [] t else '*' :: gap ++ moveOpening [] t := rfl

theorem moveOpening_closing (gap t : Text) :
    moveOpening gap (italicsClose ++ t) = gap ++ (italicsClose ++ moveOpening [] t) := rfl

theorem moveClosing_opening (t : Text) : moveClosing (italicsOpen ++ t) = italicsOpen ++ moveClosing t := rfl

theorem moveClosing_closing (t : Text) : moveClosing (italicsClose ++ t) = italicsClose ++ moveClosing t ∨
    ∃ c u, t = c :: u ∧ isBlank c = true ∧ moveClosing (italicsClose ++ t) = c :: '*' :: moveClosing u := by
  cases t with
  | nil => exact .inl rfl
  | cons c u =>
    have hstep : moveClosing (italicsClose ++ c :: u) =
        if isBlank c then c :: '*' :: moveClosing u else italicsClose ++ moveClosing (c :: u) := rfl
    rw [hstep]
    by_cases hc : isBlank c = true
    · exact .inr ⟨c, u, rfl, hc, if_pos hc⟩
    · exact .inl (if_neg hc)

/-! ## Blanks do not show -/

theorem readMarks_blank (hc : isBlank c = true) (italic : Bool) (t : Text) :
    readMarks italic (c :: t) = readMarks italic t := by
  have hstar : c ≠ '*' := fun h => absurd hc (h ▸ by decide)
  rw [readMarks_char (not_marked_of_isBlank hc t), if_neg hstar, Shown.cons, if_pos hc]

theorem readMarks_gap {gap : Text} (hgap : gap.blank = true) (italic : Bool) (t : Text) :
    readMarks italic (gap ++ t) = readMarks italic t := by
  induction gap with
  | nil => rfl
  | cons c gap ih =>
    obtain ⟨hc, hgap⟩ := (Bool.and_eq_true _ _).mp hgap
    rw [List.cons_append, readMarks_blank hc, ih hgap]

/-! ## The steps -/

/-- A part of a mark is no blank and does not begin a mark. -/
def OfMark (w : Text) : Prop := ∀ c ∈ w, isBlank c = false ∧ c ≠ '<' ∧ c ≠ '*'

instance (w : Text) : Decidable (OfMark w) := List.decidableBAll _ w

/-- A character begins a mark after a step only if it did before, when the step leaves the rest of marks alone. -/
theorem not_marked_of_step (h : ¬Marked (c :: t)) (hstep : ∀ w, OfMark w → w <+: u → w <+: t) : ¬Marked (c :: u) := by
  rintro (⟨v, hv⟩ | ⟨v, hv⟩)
  · obtain ⟨hc, hu⟩ := List.cons.inj hv
    obtain ⟨v', hv'⟩ := hstep italicsOpen.tail (by decide) ⟨v, hu⟩
    exact h (.inl ⟨v', by rw [← hc, ← hv']; rfl⟩)
  · obtain ⟨hc, hu⟩ := List.cons.inj hv
    obtain ⟨v', hv'⟩ := hstep italicsClose.tail (by decide) ⟨v, hu⟩
    exact h (.inr ⟨v', by rw [← hc, ← hv']; rfl⟩)

/-- What is read of a character that begins no mark is what is read of the rest. -/
theorem readMarks_cons_congr (ht : ¬Marked (c :: t)) (hu : ¬Marked (c :: u))
    (h : ∀ italic, readMarks italic t = readMarks italic u) (italic : Bool) :
    readMarks italic (c :: t) = readMarks italic (c :: u) := by
  rw [readMarks_char ht, readMarks_char hu, h, h]

/-- A part of a mark does not stand where a blank, a mark or an asterisk does. -/
theorem OfMark.not_begins {d : Char} {w : Text} (hw : OfMark (d :: w)) (hc : isBlank c = true ∨ c = '<' ∨ c = '*') :
    ¬d :: w <+: c :: u := by
  intro h
  obtain ⟨hblank, hbracket, hstar⟩ := hw d List.mem_cons_self
  obtain rfl := (List.cons_prefix_cons.mp h).1
  rcases hc with hc | rfl | rfl
  · rw [hblank] at hc
    cases hc
  · exact hbracket rfl
  · exact hstar rfl

theorem prefix_of_moveClosing {w : Text} (hw : OfMark w) (h : w <+: moveClosing t) : w <+: t := by
  induction t using cutAtMarks generalizing w with
  | nil => exact h
  | opening t ih =>
    cases w with
    | nil => exact List.nil_prefix
    | cons d w => exact absurd h (hw.not_begins (.inr (.inl rfl)))
  | closing t ih =>
    cases w with
    | nil => exact List.nil_prefix
    | cons d w =>
      rcases moveClosing_closing t with hstep | ⟨c, u, -, hc, hstep⟩
      · rw [hstep] at h
        exact absurd h (hw.not_begins (.inr (.inl rfl)))
      · rw [hstep] at h
        exact absurd h (hw.not_begins (.inl hc))
  | char c t hc ih =>
    cases w with
    | nil => exact List.nil_prefix
    | cons d w =>
      rw [moveClosing_char hc] at h
      obtain ⟨rfl, hrest⟩ := List.cons_prefix_cons.mp h
      exact List.cons_prefix_cons.mpr ⟨rfl, ih (fun e he => hw e (List.mem_cons_of_mem _ he)) hrest⟩

/-- Moving marks behind a blank does not matter to the reading. -/
theorem readMarks_moveClosing (italic : Bool) (t : Text) : readMarks italic (moveClosing t) = readMarks italic t := by
  induction t using cutAtMarks generalizing italic with
  | nil => rfl
  | opening t ih => rw [moveClosing_opening, readMarks_opening, readMarks_opening, ih]
  | closing t ih hrest =>
    rcases moveClosing_closing t with hstep | ⟨c, u, rfl, hc, hstep⟩
    · rw [hstep, readMarks_closing, readMarks_closing, ih]
    · rw [hstep, readMarks_blank hc, readMarks_star, hrest c u rfl, readMarks_closing, readMarks_blank hc]
  | char c t hc ih =>
    have hc' : ¬Marked (c :: moveClosing t) := not_marked_of_step hc fun w hw => prefix_of_moveClosing hw
    rw [moveClosing_char hc]
    exact readMarks_cons_congr hc' hc ih italic

/-- Behind a gap there is a blank or an asterisk first. -/
theorem head_moveOpening {gap : Text} (hne : gap ≠ []) (hgap : gap.blank = true) (t : Text) :
    ∃ c u, moveOpening gap t = c :: u ∧ (isBlank c = true ∨ c = '*') := by
  have hfront (gap u : Text) (hne : gap ≠ []) (hgap : gap.blank = true) :
      ∃ c v, gap ++ u = c :: v ∧ (isBlank c = true ∨ c = '*') := by
    obtain ⟨c, gap, rfl⟩ := List.exists_cons_of_ne_nil hne
    exact ⟨c, gap ++ u, rfl, .inl ((Bool.and_eq_true _ _).mp hgap).1⟩
  induction t using cutAtMarks generalizing gap with
  | nil => simpa [moveOpening] using hfront gap [] hne hgap
  | opening t ih =>
    rw [moveOpening_opening, if_neg (by simpa using hne)]
    exact ⟨'*', _, rfl, .inr rfl⟩
  | closing t ih => exact hfront _ _ hne hgap
  | char c t hc ih =>
    rw [moveOpening_char hc]
    by_cases hblank : isBlank c = true
    · rw [if_pos hblank]
      exact ih (by simp) (by simp_all [blank])
    · rw [if_neg hblank]
      exact hfront _ _ hne hgap

theorem prefix_of_moveOpening {w : Text} (hw : OfMark w) (h : w <+: moveOpening [] t) : w <+: t := by
  induction t using cutAtMarks generalizing w with
  | nil => exact h
  | opening t ih =>
    cases w with
    | nil => exact List.nil_prefix
    | cons d w => exact absurd h (hw.not_begins (.inr (.inl rfl)))
  | closing t ih =>
    cases w with
    | nil => exact List.nil_prefix
    | cons d w => exact absurd h (hw.not_begins (.inr (.inl rfl)))
  | char c t hc ih =>
    cases w with
    | nil => exact List.nil_prefix
    | cons d w =>
      rw [moveOpening_char hc] at h
      by_cases hblank : isBlank c = true
      · rw [if_pos hblank] at h
        obtain ⟨e, u, hgap, he⟩ := head_moveOpening (List.cons_ne_nil c []) (by simp [blank, hblank]) t
        rw [List.nil_append, hgap] at h
        exact absurd h (hw.not_begins (he.imp id .inr))
      · rw [if_neg hblank, List.nil_append] at h
        obtain ⟨rfl, hrest⟩ := List.cons_prefix_cons.mp h
        exact List.cons_prefix_cons.mpr ⟨rfl, ih (fun e he => hw e (List.mem_cons_of_mem _ he)) hrest⟩

/-- Moving marks before a gap does not matter to the reading. -/
theorem readMarks_moveOpening {gap : Text} (hgap : gap.blank = true) (italic : Bool) (t : Text) :
    readMarks italic (moveOpening gap t) = readMarks italic t := by
  induction t using cutAtMarks generalizing italic gap with
  | nil =>
    have := readMarks_gap hgap italic []
    rwa [List.append_nil] at this
  | opening t ih =>
    rw [moveOpening_opening]
    by_cases hempty : gap.isEmpty = true
    · rw [if_pos hempty, readMarks_opening, readMarks_opening, ih rfl]
    · rw [if_neg hempty, List.cons_append, readMarks_star, readMarks_gap hgap, ih rfl, readMarks_opening]
  | closing t ih =>
    rw [moveOpening_closing, readMarks_gap hgap, readMarks_closing, readMarks_closing, ih rfl]
  | char c t hc ih =>
    rw [moveOpening_char hc]
    by_cases hblank : isBlank c = true
    · rw [if_pos hblank, ih (by simp_all [blank]), readMarks_blank hblank]
    · have hc' : ¬Marked (c :: moveOpening [] t) := not_marked_of_step hc fun w hw => prefix_of_moveOpening hw
      rw [if_neg hblank, readMarks_gap hgap]
      exact readMarks_cons_congr hc' hc (fun italic => ih rfl italic) italic

/-- Marks are read as the asterisks that they become. -/
theorem readItalics_starMarks (italic : Bool) (t : Text) : readItalics italic (starMarks t) = readMarks italic t := by
  induction t using cutAtMarks generalizing italic with
  | nil => rfl
  | opening t ih => exact ih (!italic)
  | closing t ih => exact ih (!italic)
  | char c t hc ih => rw [starMarks_char hc, readMarks_char hc, readItalics, ih, ih]

/-! ## The ends -/

/-- A mark or asterisk at the end turns italics once more. -/
theorem readMarks_append_mark {m : Text} (hm : m = ['*'] ∨ m = italicsClose) (italic : Bool) (t : Text) :
    readMarks italic (t ++ m) = ((readMarks italic t).1, !(readMarks italic t).2) := by
  induction t using cutAtMarks generalizing italic with
  | nil => rcases hm with rfl | rfl <;> rfl
  | opening t ih => exact ih (!italic)
  | closing t ih => exact ih (!italic)
  | char c t hc ih =>
    rw [List.cons_append, readMarks_char (not_marked_append hm hc), readMarks_char hc, ih, ih, Shown.cons, Shown.cons]
    by_cases hstar : c = '*'
    · rw [if_pos hstar, if_pos hstar]
    · rw [if_neg hstar, if_neg hstar]
      by_cases hblank : isBlank c = true
      · rw [if_pos hblank, if_pos hblank]
      · rw [if_neg hblank, if_neg hblank]

/-- The title is read as it stands after an asterisk. -/
theorem readMarks_italicsStart (italic : Bool) (t : Text) :
    readMarks italic (italicsStart t) = readMarks (!italic) t := by
  cases h : after? italicsOpen t with
  | none => rw [italicsStart, h, Option.elim_none, readMarks_star]
  | some u =>
    obtain rfl := after?_eq_some.mp h
    rw [italicsStart, h, Option.elim_some, readMarks_opening, Bool.not_not, id]

/-- The title is read as it stands, with italics turned once more at the end. -/
theorem readMarks_italicsEnd (italic : Bool) (t : Text) :
    readMarks italic (italicsEnd t) = ((readMarks italic t).1, !(readMarks italic t).2) := by
  unfold italicsEnd
  split
  · next front h =>
    have ht : t = front.reverse ++ italicsClose := by
      rw [← List.reverse_reverse t, after?_eq_some.mp h, List.reverse_append, List.reverse_reverse]
    rw [ht, readMarks_append_mark (.inr rfl), Bool.not_not]
  · exact readMarks_append_mark (.inl rfl) italic t

/-! ## Titles -/

/-- In a title whose marks alternate italics are off inside the spans and on outside, and on at the end. -/
theorem readMarks_of_alternate {inside : Bool} (hstars : '*' ∉ t) (h : marksAlternate inside t = true) :
    readMarks (!inside) t = (readTitle (!inside) t, true) := by
  induction t using cutAtMarks generalizing inside with
  | nil =>
    obtain rfl : inside = false := by simpa [marksAlternate] using h
    rfl
  | opening t ih =>
    obtain ⟨hinside, hrest⟩ := (Bool.and_eq_true (!inside) (marksAlternate true t)).mp h
    obtain rfl : inside = false := by simpa using hinside
    exact ih (by simp_all) hrest
  | closing t ih =>
    obtain ⟨rfl, hrest⟩ := (Bool.and_eq_true inside (marksAlternate false t)).mp h
    exact ih (by simp_all) hrest
  | char c t hc ih =>
    obtain ⟨hstar, hstars⟩ := not_or.mp (mt List.mem_cons.mpr hstars)
    rw [marksAlternate_char hc] at h
    rw [readMarks_char hc, readTitle_char hc, if_neg (Ne.symm hstar), ih hstars h, Shown.cons]
    by_cases hblank : isBlank c = true
    · rw [if_pos hblank, if_pos hblank]
    · rw [if_neg hblank, if_neg hblank]

/-- **Italics and roman are swapped.** A title without asterisks whose marks alternate ends in roman when it is set in
italics, and its characters other than blanks, in their order, are in italics exactly if they stand outside its spans.
-/
theorem reverseItalics_swaps (title : Text) (hstars : '*' ∉ title) (h : marksAlternate false title = true) :
    readItalics false (reverseItalics title) = (readTitle true title, false) := by
  have hread : readItalics false (reverseItalics title) =
      ((readMarks true title).1, !(readMarks true title).2) := by
    rw [reverseItalics, readItalics_starMarks, readMarks_moveClosing, readMarks_moveOpening rfl, readMarks_italicsEnd,
      readMarks_italicsStart]
    rfl
  have htitle : readMarks true title = (readTitle true title, true) := readMarks_of_alternate hstars h
  rw [hread, htitle]
  rfl

/-- A gap of blanks between spans, a span between blanks, an empty one, an end of a title in a span, and a sign that
looks like a mark. -/
theorem reverseItalics_swaps_spans :
    let title : Text := " <i>A</i>  <i>B </i> c<i></i> < i><i>\tD</i>"
    readItalics false (reverseItalics title) = (readTitle true title, false) := by
  intro title
  exact reverseItalics_swaps title (by decide +kernel) (by decide +kernel)

end Footcite.Text
