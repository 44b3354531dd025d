import Footcite.Proofs.Citation.Italics

/-!
# Asterisks side by side

Two asterisks side by side stand for bold text, so an asterisk for italics must not come to stand beside another. A text
is looked through for this from its beginning on (`Text.stars`). Abbreviations and names have no asterisks of their own
(`Text.Unstarred`); the title of an article in italics has one for each mark and one at each end, where there is no
mark, and they stand apart if the spans of the title do (`Text.SpansApart`, `Text.stars_reverseItalics`), and those of
the name of a case always do (`Text.stars_caseTitle`).
-/

namespace Footcite.Text

variable {c : Char} {t u : Text} {b b' : Bool}

/-! ## Looking for asterisks -/

/-- Whether a text ends in an asterisk; nothing if two stand side by side in it. The flag says whether an asterisk comes
just before the text. -/
def stars : Bool → Text → Option Bool
  | b, [] => some b
  | b, c :: t => if c = '*' then if b then none else stars true t else stars false t

theorem stars_append (b : Bool) (t u : Text) : stars b (t ++ u) = (stars b t).bind (stars · u) := by
  induction t generalizing b with
  | nil => rfl
  | cons c t ih =>
    simp only [List.cons_append, stars]
    split
    · split
      · rfl
      · exact ih true
    · exact ih false

theorem stars_cons_of_ne (hc : c ≠ '*') (b : Bool) (t : Text) : stars b (c :: t) = stars false t := if_neg hc

/-- What is found after the first character; an asterisk has none before it and none after it. -/
theorem stars_of_cons (h : stars b (c :: t) = some b') :
    ∃ b₁, stars b₁ t = some b' ∧ (c = '*' → ∀ u, t ≠ '*' :: u) := by
  by_cases hc : c = '*'
  · subst hc
    cases b with
    | true => cases h
    | false =>
      refine ⟨true, h, ?_⟩
      rintro - u rfl
      cases h
  · rw [stars_cons_of_ne hc] at h
    exact ⟨false, h, fun hstar => absurd hstar hc⟩

/-- Where there may be an asterisk before a text, there need not be one. -/
theorem stars_false_isSome (h : (stars b t).isSome = true) : (stars false t).isSome = true := by
  cases b with
  | false => exact h
  | true =>
    cases t with
    | nil => rfl
    | cons c t =>
      by_cases hc : c = '*'
      · simp [stars, hc] at h
      · rwa [stars_cons_of_ne hc] at h ⊢

/-- **No two asterisks stand side by side** in a text that is looked through to its end. -/
theorem not_infix_of_stars (h : stars b t = some b') : ¬"**".toList <:+: t := by
  rintro ⟨before, after, rfl⟩
  have htwo : ∀ b, stars b "**".toList = none := by decide
  rw [stars_append, stars_append] at h
  cases hb : stars b before with
  | none =>
    rw [hb] at h
    cases h
  | some b₁ =>
    rw [hb, Option.bind_some, htwo] at h
    cases h

/-- A text on one line that has no asterisks. -/
def Unstarred (t : Text) : Prop := ∀ c ∈ t, c ≠ '*' ∧ c ≠ '\n'

instance (t : Text) : Decidable (Unstarred t) := List.decidableBAll _ t

theorem Unstarred.append (ht : Unstarred t) (hu : Unstarred u) : Unstarred (t ++ u) := by
  intro c hc
  rcases List.mem_append.mp hc with hc | hc
  · exact ht c hc
  · exact hu c hc

theorem Unstarred.subset (hu : Unstarred u) (h : t ⊆ u) : Unstarred t := fun c hc => hu c (h hc)

theorem Unstarred.join {separator : Text} (hs : Unstarred separator) : ∀ {ts : List Text}, (∀ t ∈ ts, Unstarred t) →
    Unstarred (join separator ts)
  | [], _ => by simp [Text.join, Unstarred]
  | [t], h => h t List.mem_cons_self
  | t :: u :: ts, h => by
    obtain ⟨ht, hts⟩ := List.forall_mem_cons.mp h
    exact (ht.append hs).append (Unstarred.join hs hts)

/-- After a text without asterisks there is none, unless there was one before it and it is empty. -/
theorem stars_of_unstarred (h : Unstarred t) (b : Bool) : stars b t = some (t.isEmpty && b) := by
  induction t generalizing b with
  | nil => rfl
  | cons c t ih =>
    obtain ⟨hc, ht⟩ := List.forall_mem_cons.mp h
    rw [stars_cons_of_ne hc.1, ih ht, Bool.and_false]
    rfl

theorem stars_append_unstarred (h : stars b t = some false) (hu : Unstarred u) : stars b (t ++ u) = some false := by
  rw [stars_append, h, Option.bind_some, stars_of_unstarred hu, Bool.and_false]

/-! ## The name of a case -/

/-- A text that reads like a phrase may take its place. -/
theorem stars_replace {old new : Text} (hne : old ≠ []) (h : ∀ b, stars b new = stars b old) (b : Bool) (t : Text) :
    stars b (t.replace old new) = stars b t := by
  induction t using cutAtPhrase hne generalizing b with
  | nil => rfl
  | phrase t ih =>
    rw [replace_append_self hne, stars_append, stars_append, h]
    congr 1
    exact funext ih
  | cons c t hold ih =>
    rw [replace_cons hold]
    simp only [stars, ih]

/-- In a text without asterisks any phrase may be put that keeps its own apart and ends in none. -/
theorem stars_replace_of_unstarred {old new : Text} (hne : old ≠ []) (h : stars false new = some false)
    (ht : Unstarred t) : stars false (t.replace old new) = some false := by
  induction t using cutAtPhrase hne with
  | nil => rfl
  | phrase t ih =>
    rw [replace_append_self hne, stars_append, h]
    exact ih (ht.subset (List.subset_append_right old t))
  | cons c t hold ih =>
    obtain ⟨hc, ht⟩ := List.forall_mem_cons.mp ht
    rw [replace_cons hold, stars_cons_of_ne hc.1]
    exact ih ht

/-- **The phrases in italics in the name of a case stand apart.** -/
theorem stars_caseTitle (h : Unstarred t) : stars false t.caseTitle = some false := by
  rw [caseTitle, stars_replace (by decide) (by decide)]
  exact stars_replace_of_unstarred (by decide) (by decide) h

/-! ## Titles in italics -/

/-- In a title, a span is not empty, and after a span there is more than blanks before the next, and more than one blank
before the end. -/
def spansApart : Text → Bool
  | [] => true
  | '<' :: 'i' :: '>' :: t => ¬italicsClose <+: t && spansApart t
  | '<' :: '/' :: 'i' :: '>' :: t => (¬italicsOpen <+: trimStart t ∧ ¬(blank t = true ∧ t.length = 1)) && spansApart t
  | _ :: t => spansApart t

/-- **The spans of a title stand apart** from each other and from its ends; what comes before the first span, if
anything, is more than blanks. -/
def SpansApart (t : Text) : Prop := (italicsOpen <+: t.trimStart → italicsOpen <+: t) ∧ spansApart t = true

instance (t : Text) : Decidable (SpansApart t) := inferInstanceAs (Decidable ((_ → _) ∧ _))

/-- Signs, that is asterisks and marks, stand apart in a text on the way from a title: within so many blanks from its
beginning there is none, none is beside another, and none follows a closing mark and one blank. -/
def apart : Nat → Text → Bool
  | _, [] => true
  | n, '<' :: 'i' :: '>' :: t => n = 0 && apart 1 t
  | n, '<' :: '/' :: 'i' :: '>' :: t => n = 0 && apart 2 t
  | n, c :: t => if c = '*' then n = 0 && apart 1 t else if isBlank c then apart (n - 1) t else apart 0 t

section Char

variable (h : ¬Marked (c :: t))
include h

theorem spansApart_char : spansApart (c :: t) = spansApart t := by
  rw [spansApart.eq_def]
  split
  · contradiction
  · next heq => exact absurd (.inl ⟨_, heq.symm⟩) h
  · next heq => exact absurd (.inr ⟨_, heq.symm⟩) h
  · next heq =>
    obtain ⟨rfl, rfl⟩ := List.cons.inj heq
    rfl

theorem apart_char (n : Nat) : apart n (c :: t) =
    if c = '*' then n = 0 && apart 1 t else if isBlank c then apart (n - 1) t else apart 0 t := by
  rw [apart.eq_def]
  split
  · contradiction
  · next heq => exact absurd (.inl ⟨_, heq.symm⟩) h
  · next heq => exact absurd (.inr ⟨_, heq.symm⟩) h
  · next heq =>
    obtain ⟨rfl, rfl⟩ := List.cons.inj heq
    rfl

end Char

theorem spansApart_opening : spansApart (italicsOpen ++ t) = true ↔ ¬italicsClose <+: t ∧ spansApart t = true := by
  show (decide (¬italicsClose <+: t) && spansApart t) = true ↔ _
  rw [Bool.and_eq_true, decide_eq_true_iff]

theorem spansApart_closing : spansApart (italicsClose ++ t) = true ↔
    (¬italicsOpen <+: t.trimStart ∧ ¬(t.blank = true ∧ t.length = 1)) ∧ spansApart t = true := by
  show (decide (¬italicsOpen <+: t.trimStart ∧ ¬(t.blank = true ∧ t.length = 1)) && spansApart t) = true ↔ _
  rw [Bool.and_eq_true, decide_eq_true_iff]

theorem apart_opening (n : Nat) (t : Text) : apart n (italicsOpen ++ t) = (n = 0 && apart 1 t) := rfl

theorem apart_closing (n : Nat) (t : Text) : apart n (italicsClose ++ t) = (n = 0 && apart 2 t) := rfl

theorem apart_star (n : Nat) (t : Text) : apart n ('*' :: t) = (n = 0 && apart 1 t) := rfl

theorem apart_blank (hc : isBlank c = true) (n : Nat) (t : Text) : apart n (c :: t) = apart (n - 1) t := by
  have hstar : c ≠ '*' := fun h => absurd hc (h ▸ by decide)
  rw [apart_char (not_marked_of_isBlank hc t), if_neg hstar, if_pos hc]

theorem apart_gap {gap : Text} (hgap : gap.blank = true) (n : Nat) (t : Text) :
    apart n (gap ++ t) = apart (n - gap.length) t := by
  induction gap generalizing n with
  | nil => rfl
  | cons c gap ih =>
    obtain ⟨hc, hgap⟩ := (Bool.and_eq_true _ _).mp hgap
    rw [List.cons_append, apart_blank hc, ih hgap, List.length_cons, Nat.sub_sub, Nat.add_comm]

/-- **Signs that stand apart become asterisks that do**, closing marks moved behind a blank. -/
theorem stars_of_apart {n : Nat} (h : apart n t = true) :
    (stars (n ≠ 0) (starMarks (moveClosing t))).isSome = true := by
  induction t using cutAtMarks generalizing n with
  | nil => rfl
  | opening t ih =>
    obtain ⟨rfl, ht⟩ : n = 0 ∧ apart 1 t = true := by simpa [apart_opening] using h
    exact ih ht
  | closing t ih hrest =>
    obtain ⟨rfl, ht⟩ : n = 0 ∧ apart 2 t = true := by simpa [apart_closing] using h
    rcases moveClosing_closing t with hstep | ⟨c, u, rfl, hc, hstep⟩
    · rw [hstep]
      exact ih ht
    · have hstar : c ≠ '*' := fun h => absurd hc (h ▸ by decide)
      rw [apart_blank hc] at ht
      rw [hstep, starMarks_char (not_marked_of_isBlank hc _), stars_cons_of_ne hstar]
      exact hrest c u rfl ht
  | char c t hc ih =>
    have hc' : ¬Marked (c :: moveClosing t) := not_marked_of_step hc fun w hw => prefix_of_moveClosing hw
    rw [moveClosing_char hc, starMarks_char hc']
    rw [apart_char hc] at h
    by_cases hstar : c = '*'
    · obtain ⟨rfl, ht⟩ : n = 0 ∧ apart 1 t = true := by simpa [hstar] using h
      subst hstar
      exact ih ht
    · rw [if_neg hstar] at h
      rw [stars_cons_of_ne hstar]
      by_cases hblank : isBlank c = true
      · rw [if_pos hblank] at h
        exact stars_false_isSome (ih h)
      · rw [if_neg hblank] at h
        exact ih h

/-! ### From a title to its signs -/

theorem marksAlternate_gap {gap : Text} (hgap : gap.blank = true) (inside : Bool) (t : Text) :
    marksAlternate inside (gap ++ t) = marksAlternate inside t := by
  induction gap with
  | nil => rfl
  | cons c gap ih =>
    obtain ⟨hc, hgap⟩ := (Bool.and_eq_true _ _).mp hgap
    rw [List.cons_append, marksAlternate_char (not_marked_of_isBlank hc _), ih hgap]

/-- Inside a span no other opens, -/
theorem not_opening_of_alternate (h : marksAlternate true t = true) : ¬italicsOpen <+: t.trimStart := by
  obtain ⟨lead, ht, hlead⟩ := exists_trimStart t
  rintro ⟨u, hu⟩
  rw [ht, marksAlternate_gap hlead, ← hu] at h
  cases h

/-- and outside of spans none is closed. -/
theorem not_closing_of_alternate (h : marksAlternate false t = true) {gap : Text} (hgap : gap.blank = true) :
    ¬gap ++ italicsClose <+: t := by
  rintro ⟨u, rfl⟩
  rw [List.append_assoc, marksAlternate_gap hgap] at h
  cases h

/-- A closing mark at the end is taken off, -/
theorem italicsEnd_append_closing (t : Text) : italicsEnd (t ++ italicsClose) = t := by
  have h : after? italicsClose.reverse (t ++ italicsClose).reverse = some t.reverse :=
    after?_eq_some.mpr List.reverse_append
  rw [italicsEnd, h]
  exact t.reverse_reverse

/-- and where there is none, there comes an asterisk. -/
theorem italicsEnd_of_not_suffix (h : ¬italicsClose <:+ t) : italicsEnd t = t ++ ['*'] := by
  unfold italicsEnd
  split
  · next front hfront =>
    refine absurd ⟨front.reverse, ?_⟩ h
    rw [← List.reverse_reverse t, after?_eq_some.mp hfront, List.reverse_append, List.reverse_reverse]
  · rfl

/-- What comes before the end stays. -/
theorem italicsEnd_append (h : italicsClose <:+ u ++ t → italicsClose <:+ t) :
    italicsEnd (u ++ t) = u ++ italicsEnd t := by
  by_cases ht : italicsClose <:+ t
  · obtain ⟨v, rfl⟩ := ht
    rw [← List.append_assoc, italicsEnd_append_closing, italicsEnd_append_closing]
  · rw [italicsEnd_of_not_suffix ht, italicsEnd_of_not_suffix (mt h ht), List.append_assoc]

theorem italicsEnd_char (h : ¬Marked (c :: t)) : italicsEnd (c :: t) = c :: italicsEnd t := by
  have hfront : italicsClose <:+ [c] ++ t → italicsClose <:+ t := by
    intro hend
    rcases List.suffix_cons_iff.mp hend with heq | hend
    · exact absurd (.inr (heq ▸ List.prefix_rfl)) h
    · exact hend
  exact italicsEnd_append hfront

theorem italicsEnd_opening (t : Text) : italicsEnd (italicsOpen ++ t) = italicsOpen ++ italicsEnd t := by
  refine italicsEnd_append fun hend => ?_
  have hend : italicsClose <:+ '<' :: 'i' :: '>' :: t := hend
  simpa [List.suffix_cons_iff, italicsClose] using hend

theorem italicsEnd_closing (hne : t ≠ []) : italicsEnd (italicsClose ++ t) = italicsClose ++ italicsEnd t := by
  refine italicsEnd_append fun hend => ?_
  have hend : italicsClose <:+ '<' :: '/' :: 'i' :: '>' :: t := hend
  simpa [List.suffix_cons_iff, italicsClose, hne.symm] using hend

/-- A character begins a mark before the end of a title only if it does in the title. -/
theorem not_marked_italicsEnd (h : ¬Marked (c :: t)) : ¬Marked (c :: italicsEnd t) := by
  by_cases ht : italicsClose <:+ t
  · obtain ⟨u, rfl⟩ := ht
    rw [italicsEnd_append_closing]
    exact mt (Or.imp (·.trans (List.prefix_append (c :: u) _)) (·.trans (List.prefix_append (c :: u) _))) h
  · rw [italicsEnd_of_not_suffix ht]
    exact not_marked_append (.inl rfl) h

/-- The rest of a title has no closing mark within so many blanks, and has more in it than these. -/
def Far (n : Nat) (t : Text) : Prop :=
  ∀ gap : Text, gap.blank = true → gap.length < n → ¬gap ++ italicsClose <+: t ∧ t ≠ gap

theorem far_zero (t : Text) : Far 0 t := fun _ _ h => absurd h (Nat.not_lt_zero _)

theorem Far.eq_zero {n : Nat} (h : Far n t) (ht : t = [] ∨ italicsClose <+: t) : n = 0 := by
  by_contra hn
  obtain ⟨hclose, hne⟩ := h [] rfl (Nat.pos_of_ne_zero hn)
  exact ht.elim hne hclose

/-- After an opening mark something stands inside the span, -/
theorem far_of_opening (halternate : marksAlternate true t = true) (hfull : ¬italicsClose <+: t) : Far 1 t := by
  intro gap _ hlength
  obtain rfl : gap = [] := List.length_eq_zero_iff.mp (Nat.lt_one_iff.mp hlength)
  refine ⟨hfull, ?_⟩
  rintro rfl
  cases halternate

/-- and after a closing mark, if it is not the end, there is more than a blank. -/
theorem far_of_closing (hne : t ≠ []) (halternate : marksAlternate false t = true)
    (hmore : ¬(t.blank = true ∧ t.length = 1)) : Far 2 t := by
  intro gap hgap hlength
  refine ⟨not_closing_of_alternate halternate hgap, ?_⟩
  rintro rfl
  have := List.length_pos_of_ne_nil hne
  exact hmore ⟨hgap, by omega⟩

/-- A blank is one of those within which there is no sign. -/
theorem Far.tail {n : Nat} (hc : isBlank c = true) (h : Far n (c :: t)) : Far (n - 1) t := by
  intro gap hgap hlength
  have hlonger : (c :: gap).length < n := by
    rw [List.length_cons]
    omega
  obtain ⟨hclose, hne⟩ := h (c :: gap) ((Bool.and_eq_true _ _).mpr ⟨hc, hgap⟩) hlonger
  exact ⟨fun hmark => hclose (List.cons_prefix_cons.mpr ⟨rfl, hmark⟩), fun heq => hne (heq ▸ rfl)⟩

/-- **The signs of a title stand apart** once the marks before gaps are moved. Within so many blanks after the place
where the gap begins there may be no sign, and there is none if no opening mark follows the blanks. -/
theorem apart_moveOpening {inside : Bool} {n : Nat} {gap : Text} (hgap : gap.blank = true) (hstars : '*' ∉ t)
    (halternate : marksAlternate inside t = true) (hspans : spansApart t = true)
    (hopen : n ≠ 0 → ¬italicsOpen <+: t.trimStart) (hfar : Far (n - gap.length) t) :
    apart n (moveOpening gap (italicsEnd t)) = true := by
  induction t using cutAtMarks generalizing inside n gap with
  | nil =>
    have hout : moveOpening gap (italicsEnd []) = gap ++ ['*'] := rfl
    rw [hout, apart_gap hgap, hfar.eq_zero (.inl rfl)]
    rfl
  | opening t ih =>
    obtain ⟨-, hrest⟩ := (Bool.and_eq_true (!inside) (marksAlternate true t)).mp halternate
    obtain ⟨hfull, hspans⟩ := spansApart_opening.mp hspans
    have hstars : '*' ∉ t := fun h => hstars (List.mem_append_right _ h)
    obtain rfl : n = 0 := by
      by_contra hn
      exact hopen hn (List.prefix_append italicsOpen t)
    rw [italicsEnd_opening, moveOpening_opening]
    by_cases hempty : gap = []
    · rw [if_pos (by simpa using hempty), apart_opening]
      exact ih rfl hstars hrest hspans (fun _ => not_opening_of_alternate hrest) (far_of_opening hrest hfull)
    · have hlength : 1 - gap.length = 0 := Nat.sub_eq_zero_of_le (List.length_pos_of_ne_nil hempty)
      rw [if_neg (by simpa using hempty), List.cons_append, apart_star, apart_gap hgap, hlength]
      exact ih rfl hstars hrest hspans (absurd rfl) (far_zero t)
  | closing t ih =>
    obtain ⟨rfl, hrest⟩ := (Bool.and_eq_true inside (marksAlternate false t)).mp halternate
    obtain ⟨⟨hnext, hmore⟩, hspans⟩ := spansApart_closing.mp hspans
    have hstars : '*' ∉ t := fun h => hstars (List.mem_append_right _ h)
    by_cases hne : t = []
    · have hout : moveOpening gap (italicsEnd (italicsClose ++ t)) = gap ++ [] := by
        rw [hne, List.append_nil, List.append_nil]
        rfl
      rw [hout, apart_gap hgap]
      rfl
    · rw [italicsEnd_closing hne, moveOpening_closing, apart_gap hgap,
        hfar.eq_zero (.inr (List.prefix_append italicsClose t)), apart_closing]
      exact ih rfl hstars hrest hspans (fun _ => hnext) (far_of_closing hne hrest hmore)
  | char c t hc ih =>
    obtain ⟨hstar, hstars⟩ := not_or.mp (mt List.mem_cons.mpr hstars)
    rw [marksAlternate_char hc] at halternate
    rw [spansApart_char hc] at hspans
    have hc' : ¬Marked (c :: italicsEnd t) := not_marked_italicsEnd hc
    rw [italicsEnd_char hc, moveOpening_char hc']
    by_cases hblank : isBlank c = true
    · have hlonger : n - (gap ++ [c]).length = n - gap.length - 1 := by simp [Nat.sub_sub]
      have hlead : blank [c] = true := by simp [blank, hblank]
      have hstart : trimStart (c :: t) = trimStart t := trimStart_append hlead t
      rw [if_pos hblank]
      rw [hstart] at hopen
      exact ih (by simp_all [blank]) hstars halternate hspans hopen (hlonger ▸ hfar.tail hblank)
    · have hc'' : ¬Marked (c :: moveOpening [] (italicsEnd t)) :=
        not_marked_of_step hc' fun w hw => prefix_of_moveOpening hw
      rw [if_neg hblank, apart_gap hgap, apart_char hc'', if_neg (Ne.symm hstar), if_neg hblank]
      exact ih rfl hstars halternate hspans (absurd rfl) (far_zero t)

/-- **In a title set in italics no asterisk stands beside another** if its spans stand apart. -/
theorem stars_reverseItalics (hne : t ≠ []) (hstars : '*' ∉ t) (halternate : marksAlternate false t = true)
    (hspans : SpansApart t) : (stars false t.reverseItalics).isSome = true := by
  obtain ⟨hfront, hspans⟩ := hspans
  suffices h : apart 0 (moveOpening [] (italicsEnd (italicsStart t))) = true from stars_of_apart h
  cases hstart : after? italicsOpen t with
  | some u =>
    obtain rfl := after?_eq_some.mp hstart
    have hout : italicsStart (italicsOpen ++ u) = u := by rw [italicsStart, hstart, Option.elim_some, id]
    have hstars : '*' ∉ u := fun h => hstars (List.mem_append_right _ h)
    rw [hout]
    exact apart_moveOpening rfl hstars halternate (spansApart_opening.mp hspans).2 (absurd rfl) (far_zero u)
  | none =>
    have hout : italicsStart t = '*' :: t := by rw [italicsStart, hstart, Option.elim_none]
    have hstar : ∀ u, ¬Marked ('*' :: u) := fun u h => absurd h.head (by decide)
    have hopen : ¬italicsOpen <+: t.trimStart := by
      intro h
      obtain ⟨u, hu⟩ := hfront h
      rw [after?_eq_some.mpr hu.symm] at hstart
      cases hstart
    have hfar : Far 1 t := by
      intro gap hgap hlength
      obtain rfl : gap = [] := List.length_eq_zero_iff.mp (Nat.lt_one_iff.mp hlength)
      exact ⟨not_closing_of_alternate halternate hgap, hne⟩
    rw [hout, italicsEnd_char (hstar t), moveOpening_char (hstar _), if_neg (by decide), List.nil_append, apart_star]
    exact apart_moveOpening rfl hstars halternate hspans (fun _ => hopen) hfar

end Footcite.Text
