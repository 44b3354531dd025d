import Footcite.Citation.Basic
import Footcite.Proofs.Gives

/-!
# Where a citation prints its pincite

A citation prints its pincite in one clause, which the form and the kind of the source decide (`Source.pinClause`). What
stands before the clause and after it is the same whatever the pincite is (`Source.inForm_pins`). In the short forms the
clause has the "at" that the pincite takes (`Pincite.withAt_eq`). The one form without a clause is the *id.* that leaves
out a pincite which is that of the citation before it.
-/

namespace Footcite

open Styled (plain)

/-- "At" is written before a pincite unless this begins with a section sign or a paragraph sign. -/
theorem Pincite.withAt_eq (q : Text) :
    withAt q = if q.head? = some '§' ∨ q.head? = some '¶' then q else "at ".toList ++ q := by
  have htakes : takesAt q = true ↔ ¬(q.head? = some '§' ∨ q.head? = some '¶') := by
    cases q <;> simp [takesAt]
  have hplaceholder : takesAt placeholder = true := by decide
  unfold withAt
  by_cases hq : takesAt q = true
  · rw [hq, Bool.or_true, if_pos rfl, if_neg (htakes.mp hq)]
  · have hne : q ≠ placeholder := fun h => hq (h ▸ hplaceholder)
    rw [Bool.not_eq_true] at hq
    simp only [hne, hq, decide_false, Bool.or_self, Bool.false_eq_true, if_false]
    rw [if_pos (by_contra fun h => by simp [htakes.mpr h] at hq)]

/-- Whether the full citation of a manuscript gives the page that it begins on. -/
def Manuscript.paged (m : Manuscript) : Bool := m.pinBasis = .page && (nonEmpty m.page).isSome

theorem Manuscript.paged_iff {m : Manuscript} :
    m.paged = true ↔ m.pinBasis = .page ∧ ∃ page, nonEmpty m.page = some page := by
  rw [paged, Bool.and_eq_true, decide_eq_true_iff, Option.isSome_iff_exists]

/-- **The clause in which a citation prints a pincite**, by its form and the kind of the source. -/
def Source.pinClause (s : Source) : Form → Text → Text
  | .id _ true, _ => []
  | .id _ false, q | .shortCase, q => " " ++ Pincite.withAt q
  | .short .., q =>
    if s.isCase then " " ++ Pincite.withAt q
    else if s.pinsManuscript then " (manuscript at " ++ q ++ ")"
    else ", " ++ Pincite.withAt q
  | .full _, q => match s.work with
    | .book _ => " " ++ q
    | .manuscript m => if m.paged then ", " ++ q else " (manuscript at " ++ q ++ ")"
    | .chapter _ | .article _ | .case _ => ", " ++ q
  | .longCase, q => ", " ++ q

/-- The clause holds the pincite, unless the form leaves it out. -/
theorem Source.infix_pinClause (s : Source) {form : Form} (hform : ∀ capitalized, form ≠ .id capitalized true)
    (q : Text) : q <:+: s.pinClause form q := by
  have hplain (lead : Text) : q <:+: lead ++ q := (List.suffix_append lead q).isInfix
  have hat (lead : Text) : q <:+: lead ++ Pincite.withAt q := by
    rw [Pincite.withAt_eq]
    split
    · exact hplain lead
    · exact (hplain "at ").trans (List.suffix_append lead _).isInfix
  have hmanuscript : q <:+: " (manuscript at ".toList ++ q ++ ")" := List.infix_append _ _ _
  cases form with
  | full hereinafter =>
    cases hw : s.work with
    | book | chapter | article | case =>
      simp only [pinClause, hw]
      exact hplain _
    | manuscript m =>
      simp only [pinClause, hw]
      split
      · exact hplain _
      · exact hmanuscript
  | short note hereinafter =>
    simp only [pinClause]
    split
    · exact hat _
    · split
      · exact hmanuscript
      · exact hat _
  | id capitalized repeated =>
    cases repeated with
    | true => exact absurd rfl (hform capitalized)
    | false => exact hat _
  | shortCase => exact hat _
  | longCase => exact hplain _

namespace Editing

/-- **The work prints a pincite in a clause**, and nothing else that it prints depends on the pincite. -/
def Pins (work : Option Text → Editing Styled) (clause : Text → Text) : Prop :=
  ∀ k q spans k', Gives (work (some q)) k spans k' → ∃ before after, ∀ q', ∃ spans',
    Gives (work (some q')) k spans' k' ∧ spans'.markdown = before ++ clause q' ++ after

variable {α : Type} {clause : Text → Text}

/-- Spans of which the pincite is a part. -/
theorem Pins.pure {spans : Option Text → Styled} (before after : Text)
    (h : ∀ q, (spans (some q)).markdown = before ++ clause q ++ after) :
    Pins (fun pin => Pure.pure (spans pin)) clause := by
  intro k q _ k' hspans
  obtain ⟨-, rfl⟩ := gives_pure.mp hspans
  exact ⟨before, after, fun q' => ⟨spans (some q'), gives_pure.mpr ⟨rfl, rfl⟩, h q'⟩⟩

/-- Work that goes before does not depend on the pincite. -/
theorem Pins.bind_gives {x : Editing α} {work : α → Option Text → Editing Styled}
    (h : ∀ {k a k'}, Gives x k a k' → Pins (work a) clause) : Pins (fun pin => x >>= fun a => work a pin) clause := by
  intro k q spans k' hspans
  obtain ⟨a, k₁, ha, hspans⟩ := gives_bind.mp hspans
  obtain ⟨before, after, hpins⟩ := h ha _ _ _ _ hspans
  refine ⟨before, after, fun q' => ?_⟩
  obtain ⟨spans', hspans', htext⟩ := hpins q'
  exact ⟨spans', gives_bind.mpr ⟨a, k₁, ha, hspans'⟩, htext⟩

theorem Pins.bind {x : Editing α} {work : α → Option Text → Editing Styled} (h : ∀ a, Pins (work a) clause) :
    Pins (fun pin => x >>= fun a => work a pin) clause := .bind_gives fun _ => h _

theorem Pins.liftM_bind {x : Except Failure α} {work : α → Option Text → Except Failure Styled}
    (h : ∀ a, Pins (fun pin => liftM (work a pin)) clause) :
    Pins (fun pin => liftM (x >>= fun a => work a pin)) clause := by
  cases x with
  | ok a => exact h a
  | error e => exact fun _ _ _ _ hspans => by cases (gives_liftM.mp hspans).1

end Editing

namespace Source

open Editing

variable {s : Source} {k k' : Desk} {parts : FullParts}

/-! ## Full citations -/

theorem fullBook_pin {b : Book} (h : Gives (s.fullBook b) k parts k') (q : Text) :
    parts.pinLeft ++ q ++ parts.pinRight = " " ++ q := by
  simp only [fullBook, gives_bind, gives_liftM, gives_pure] at h
  obtain ⟨title, _, -, after, _, -, rfl, -⟩ := h
  rw [List.append_nil]

theorem fullChapter_pin {c : Chapter} (h : Gives (s.fullChapter c) k parts k') (q : Text) :
    parts.pinLeft ++ q ++ parts.pinRight = ", " ++ q := by
  simp only [fullChapter, gives_bind, gives_liftM, gives_pure] at h
  obtain ⟨title, _, -, container, _, -, after, _, -, rfl, -⟩ := h
  rw [List.append_nil]

theorem fullArticle_pin {a : Article} (h : Gives (s.fullArticle a) k parts k') (q : Text) :
    parts.pinLeft ++ q ++ parts.pinRight = ", " ++ q := by
  simp only [fullArticle, gives_bind, gives_liftM] at h
  obtain ⟨title, _, -, page, _, -, journal, _, -, h⟩ := h
  split at h
  · simp only [gives_bind, gives_liftM, gives_pure] at h
    obtain ⟨volume, _, -, rfl, -⟩ := h
    rw [List.append_nil]
  · obtain ⟨rfl, -⟩ := gives_pure.mp h
    rw [List.append_nil]

theorem fullManuscript_pin {m : Manuscript} (h : Gives (s.fullManuscript m) k parts k') (q : Text) :
    parts.pinLeft ++ q ++ parts.pinRight = if m.paged then ", " ++ q else " (manuscript at " ++ q ++ ")" := by
  have hpaged {page : Text} (hbasis : m.pinBasis = .page) (hpage : nonEmpty m.page = some page) : m.paged = true :=
    Manuscript.paged_iff.mpr ⟨hbasis, page, hpage⟩
  have hunpaged (hnot : ∀ page, m.pinBasis = .page → nonEmpty m.page = some page → False) : ¬m.paged = true := by
    rw [Manuscript.paged_iff]
    rintro ⟨hbasis, page, hpage⟩
    exact hnot page hbasis hpage
  unfold fullManuscript at h
  obtain ⟨title, _, -, h⟩ := gives_bind.mp h
  cases hcontainer : nonEmpty m.container with
  | some _ =>
    simp only [hcontainer, gives_bind] at h
    obtain ⟨journal, _, -, place, _, -, h⟩ := h
    split at h
    · next hbasis hpage =>
      obtain ⟨rfl, -⟩ := gives_pure.mp h
      rw [if_pos (hpaged hbasis hpage), List.append_nil]
    · next hnot =>
      obtain ⟨rfl, -⟩ := gives_pure.mp h
      rw [if_neg (hunpaged hnot)]
  | none =>
    simp only [hcontainer, gives_bind] at h
    obtain ⟨place, _, -, h⟩ := h
    split at h
    · next hbasis hpage =>
      obtain ⟨rfl, -⟩ := gives_pure.mp h
      rw [if_pos (hpaged hbasis hpage), List.append_nil]
    · next hnot =>
      obtain ⟨rfl, -⟩ := gives_pure.mp h
      rw [if_neg (hunpaged hnot)]

/-- A full citation prints the pincite between its parts. -/
theorem putTogether_pins {clause : Text → Text} (hereinafter : Bool)
    (hclause : ∀ q, parts.pinLeft ++ q ++ parts.pinRight = clause q) :
    Pins (fun pin => s.putTogether hereinafter pin parts) clause := by
  have hprinted (note : Styled) : Pins (fun pin => Pure.pure (parts.before ++
      plain (pin.elim [] (fun p => parts.pinLeft ++ p ++ parts.pinRight) ++ parts.after) ++ note ++
      plain parts.ending)) clause := by
    refine .pure parts.before.markdown (parts.after ++ note.markdown ++ parts.ending) fun q => ?_
    simp [Styled.markdown, plain, Span.markdown, ← hclause]
  cases hereinafter with
  | true => exact .bind hprinted
  | false => exact .bind hprinted

/-- The long form of a case prints a pincite after the page. -/
theorem longCase_pins (c : Case) : Pins (fun pin => liftM (s.longCase c pin)) (fun q => ", " ++ q) := by
  have hprinted (lead parenthesis : Text) : Pins (fun pin => liftM (Pure.pure (plain (lead ++
      pin.elim [] (", ".toList ++ ·) ++ parenthesis)) : Except Failure Styled))
      (fun q => ", " ++ q) := by
    refine .pure lead parenthesis fun q => ?_
    simp [Styled.markdown, plain, Span.markdown]
  unfold longCase
  exact .liftM_bind fun title => .liftM_bind fun reporter => .liftM_bind fun volume => .liftM_bind fun page =>
    hprinted _ _

/-- **A full citation prints a pincite** where the kind of the source has it. -/
theorem full_pins (s : Source) (hereinafter : Bool) : Pins (s.full hereinafter) (s.pinClause (.full hereinafter)) := by
  unfold full pinClause
  cases s.work with
  | book b => exact .bind_gives fun hparts => putTogether_pins hereinafter (fullBook_pin hparts)
  | chapter c => exact .bind_gives fun hparts => putTogether_pins hereinafter (fullChapter_pin hparts)
  | article a => exact .bind_gives fun hparts => putTogether_pins hereinafter (fullArticle_pin hparts)
  | manuscript m => exact .bind_gives fun hparts => putTogether_pins hereinafter (fullManuscript_pin hparts)
  | case c => exact longCase_pins c

/-! ## Short citations -/

/-- The short form of a case has the pincite in the place of the page. -/
theorem shortCase_pins (s : Source) : Pins s.shortCase (fun q => " " ++ Pincite.withAt q) := by
  refine .bind fun reporter => .bind fun volume => .bind fun page => .bind fun title => ?_
  refine .pure (title.markdown ++ ", " ++ volume ++ " " ++ reporter) [] fun q => ?_
  simp [Styled.markdown, plain, Span.markdown]

/-- A citation that points back to a note has the pincite after the number. -/
theorem short_pins_of_not_case (hcase : s.isCase = false) (note : Int) (hereinafter : Bool) :
    Pins (s.short note hereinafter) fun q =>
      if s.pinsManuscript then " (manuscript at " ++ q ++ ")" else ", " ++ Pincite.withAt q := by
  unfold short
  simp only [hcase, Bool.false_eq_true, if_false]
  refine .bind fun head => .bind fun number => ?_
  refine .pure (head.markdown ++ ", *supra* note " ++ number) [] fun q => ?_
  simp only [Styled.markdown, plain, Span.markdown, List.flatMap_append, List.flatMap_cons, List.flatMap_nil,
    List.append_nil, List.append_assoc]

theorem short_pins (s : Source) (note : Int) (hereinafter : Bool) :
    Pins (s.short note hereinafter) (s.pinClause (.short note hereinafter)) := by
  cases hcase : s.isCase with
  | true =>
    have hclause : s.pinClause (.short note hereinafter) = fun q => " " ++ Pincite.withAt q :=
      funext fun q => if_pos hcase
    unfold short
    simp only [hcase, if_true, hclause]
    exact s.shortCase_pins
  | false =>
    have hclause : s.pinClause (.short note hereinafter) = fun q =>
        if s.pinsManuscript then " (manuscript at ".toList ++ q ++ ")" else ", ".toList ++ Pincite.withAt q :=
      funext fun q => if_neg (Bool.eq_false_iff.mp hcase)
    rw [hclause]
    exact short_pins_of_not_case hcase note hereinafter

/-- **A citation prints a pincite in its clause**, in whatever form. -/
theorem inForm_pins (s : Source) (form : Form) : Pins (s.inForm form) (s.pinClause form) := by
  cases form with
  | full hereinafter => exact s.full_pins hereinafter
  | short note hereinafter => exact s.short_pins note hereinafter
  | id capitalized repeated =>
    refine .pure (if capitalized then "*Id.*" else "*id.*").toList [] fun q => ?_
    cases capitalized <;> cases repeated <;> rfl
  | longCase =>
    unfold inForm pinClause
    cases s.work with
    | case c => exact longCase_pins c
    | book | chapter | article | manuscript => exact fun _ _ _ _ h => absurd h gives_throw
  | shortCase =>
    unfold inForm pinClause
    cases s.work with
    | case c => exact s.shortCase_pins
    | book | chapter | article | manuscript => exact fun _ _ _ _ h => absurd h gives_throw

end Source

end Footcite
