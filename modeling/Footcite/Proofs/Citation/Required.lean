import Footcite.Proofs.Citation.Failures

/-!
# What a form requires

Each form of citation requires some fields of the source (`Source.required`), and looks for them in a fixed order. A
citation whose pincite names a place fails with the first of them that the source lacks, and if it lacks none, it does
not fail for a missing field (`Source.cite_demands`).

Work demands fields of a source when this is how it fails (`Editing.Demands`), and it needs them when it fails for no
other reason (`Editing.Needs`). Work after such work demands what both demand, one after the other
(`Editing.Needs.bind_demands`).
-/

namespace Footcite

/-- The failures that lie in a note. -/
def Failure.ofNote : Failure → Bool
  | malformed .. | anchoredTwice .. | unknownSource .. | emptyPincite .. | missingField .. | neverAnchored .. => true
  | _ => false

/-- Placing a failure in a note does not make it one. -/
@[simp] theorem Failure.ofNote_inNote (number : Int) (e : Failure) : (e.inNote number).ofNote = e.ofNote := by
  unfold inNote
  split <;> rfl

namespace Source

variable (s : Source)

/-- The field is missing or blank. -/
def lacks (f : Field) : Bool := (s.field f).all Text.blank

/-- What the short name requires: the title, unless there is a short title. -/
def shortNameFields : List Field := if (nonEmpty s.shortTitle).isSome then [] else [.title]

/-- What a full citation requires, which for a case is what its long form requires. -/
def fullFields : List Field :=
  match s.work with
  | .book _ => [.title]
  | .chapter _ => [.title, .container]
  | .article a => [.title, .page, .container] ++ if a.consecutive then [.volume] else []
  | .manuscript m => .title :: if (nonEmpty m.container).isSome then [.container] else []
  | .case _ => [.title, .reporter, .volume, .page]

/-- What a short citation requires, which for a case is what its short form requires. -/
def shortFields (hereinafter : Bool) : List Field :=
  if s.isCase then [.reporter, .volume, .page] ++ s.shortNameFields
  else if s.shortAuthors.isEmpty || hereinafter then s.shortNameFields
  else []

/-- **The fields that a form requires** of the source, in the order in which they are looked for. -/
def required : Form → List Field
  | .full _ => s.fullFields
  | .short _ hereinafter => s.shortFields hereinafter
  | .id .. => []
  | .longCase => if s.isCase then s.fullFields else []
  | .shortCase => if s.isCase then s.shortFields false else []

/-- The first field that a form requires and the source lacks. -/
def firstLacking (form : Form) : Option Field := (s.required form).find? s.lacks

end Source

/-! ## Work that demands fields -/

namespace Editing

variable {s : Source} {fs gs : List Field} {α β : Type}

/-- **The work demands these fields of the source**: it fails for the first that the source lacks, and if it lacks none,
the work does not fail for any reason that lies in a note. -/
structure Demands (s : Source) (fs : List Field) (x : Editing α) : Prop where
  lacking : ∀ f, fs.find? s.lacks = some f → ∀ k, (outcome x k).1 = .error (.missingField s.id f none)
  otherwise : fs.find? s.lacks = none → ∀ k e, (outcome x k).1 = .error e → e.ofNote = false

/-- **The work needs these fields of the source**, and nothing else: it succeeds if the source lacks none. -/
structure Needs (s : Source) (fs : List Field) (x : Editing α) : Prop extends Demands s fs x where
  sure : fs.find? s.lacks = none → ∀ k, ∃ a k', Gives x k a k'

namespace Demands

/-- Work that does not fail for any reason that lies in a note demands nothing. -/
theorem of_fails {x : Editing α} (h : ∀ k e, (outcome x k).1 = .error e → e.ofNote = false) : Demands s [] x :=
  ⟨fun _ hf => (nomatch hf), fun _ => h⟩

/-- Work may be followed by work that demands nothing new. -/
theorem bind_within {x : Editing α} {f : α → Editing β} (hx : Demands s fs x) (hf : ∀ a, Demands s gs (f a))
    (h : gs ⊆ fs) : Demands s fs (x >>= f) := by
  refine ⟨fun field hfind k => outcome_bind_of_error (hx.lacking field hfind k), fun hfind k e he => ?_⟩
  have hnone : gs.find? s.lacks = none := by
    rw [List.find?_eq_none] at hfind ⊢
    exact fun f hf => hfind f (h hf)
  rcases outcome_bind_error he with he | ⟨a, k₁, -, he⟩
  · exact hx.otherwise hfind k e he
  · exact (hf a).otherwise hnone k₁ e he

theorem map {x : Editing α} (f : α → β) (hx : Demands s fs x) : Demands s fs (f <$> x) := by
  rw [← bind_pure_comp]
  exact hx.bind_within (fun a => of_fails fun _ _ h => by cases h) (List.nil_subset fs)

end Demands

namespace Needs

/-- Work that cannot fail needs nothing. -/
theorem of_gives {x : Editing α} (h : ∀ k, ∃ a k', Gives x k a k') : Needs s [] x :=
  ⟨.of_fails (FailsFor.of_gives h), fun _ => h⟩

theorem pure (a : α) : Needs s [] (Pure.pure a) := .of_gives fun k => ⟨a, k, rfl⟩

theorem note (e : Event) : Needs s [] (Editing.note e) := .of_gives fun _ => ⟨(), _, rfl⟩

theorem abbreviate (name : Text) (override : Option Text) : Needs s [] (Editing.abbreviate name override) :=
  .of_gives fun _ => ⟨_, _, rfl⟩

/-- A field that must be there is needed. -/
theorem given (f : Field) : Needs s [f] (liftM (s.given f) : Editing Text) := by
  cases hlacks : s.lacks f with
  | true =>
    have hgiven : s.given f = .error (.missingField s.id f none) := by
      unfold Source.given
      unfold Source.lacks at hlacks
      cases ht : s.field f with
      | none => rfl
      | some t => exact if_pos (by simpa [ht] using hlacks)
    refine ⟨⟨fun g hg k => ?_, fun hnone => ?_⟩, fun hnone => ?_⟩
    · simp only [List.find?_cons, hlacks, Option.some.injEq] at hg
      exact hg ▸ hgiven
    · simp [hlacks] at hnone
    · simp [hlacks] at hnone
  | false =>
    obtain ⟨t, hgiven⟩ : ∃ t, s.given f = .ok t := by
      unfold Source.given
      unfold Source.lacks at hlacks
      cases ht : s.field f with
      | none => simp [ht] at hlacks
      | some t => exact ⟨t, if_neg (by simpa [ht] using hlacks)⟩
    rw [hgiven]
    refine ⟨⟨fun g hg => ?_, fun _ k e he => ?_⟩, fun _ k => ⟨t, k, rfl⟩⟩
    · simp [hlacks] at hg
    · cases he

/-- **Work after work that needs fields** demands what both demand. -/
theorem bind_demands {x : Editing α} {f : α → Editing β} (hx : Needs s fs x) (hf : ∀ a, Demands s gs (f a)) :
    Demands s (fs ++ gs) (x >>= f) := by
  refine ⟨fun field hfind k => ?_, fun hfind k e he => ?_⟩
  · rw [List.find?_append] at hfind
    cases hfs : fs.find? s.lacks with
    | some f₁ =>
      rw [hfs, Option.some_or, Option.some.injEq] at hfind
      exact outcome_bind_of_error (hx.lacking field (hfind ▸ hfs) k)
    | none =>
      rw [hfs, Option.none_or] at hfind
      obtain ⟨a, k₁, hg⟩ := hx.sure hfs k
      rw [outcome_bind, hg]
      exact (hf a).lacking field hfind k₁
  · rw [List.find?_append, Option.or_eq_none_iff] at hfind
    obtain ⟨a, k₁, hg⟩ := hx.sure hfind.1 k
    rw [outcome_bind, hg] at he
    exact (hf a).otherwise hfind.2 k₁ e he

theorem bind {x : Editing α} {f : α → Editing β} (hx : Needs s fs x) (hf : ∀ a, Needs s gs (f a)) :
    Needs s (fs ++ gs) (x >>= f) := by
  refine ⟨hx.bind_demands fun a => (hf a).toDemands, fun hfind k => ?_⟩
  rw [List.find?_append, Option.or_eq_none_iff] at hfind
  obtain ⟨a, k₁, hg⟩ := hx.sure hfind.1 k
  obtain ⟨b, k₂, hg'⟩ := (hf a).sure hfind.2 k₁
  exact ⟨b, k₂, gives_bind.mpr ⟨a, k₁, hg, hg'⟩⟩

end Needs

end Editing

/-- Answers one after another are looked at one after another. -/
theorem Editing.liftM_bind {α β : Type} (x : Except Failure α) (f : α → Except Failure β) :
    (liftM (x >>= f) : Editing β) = (liftM x : Editing α) >>= fun a => liftM (f a) := by
  cases x <;> rfl

/-! ## Parts of citations -/

namespace Source

open Editing

variable (s : Source)

theorem publication_demands (edition : Option Text) (editors translators : List Name) (year : Option Int) :
    Demands s [] (liftM (publication edition editors translators year)) :=
  .of_fails fun _ _ h => by rw [(publication_error h).1]; rfl

theorem shortName_needs : Needs s s.shortNameFields s.shortName := by
  unfold shortName shortNameFields
  cases nonEmpty s.shortTitle with
  | some t => exact (Needs.pure t).bind fun _ => .pure _
  | none => exact ((Needs.note _).bind fun _ => Needs.given .title).bind fun _ => .pure _

theorem hereinafterNote_needs : Needs s s.shortNameFields s.hereinafterNote := by
  have h : Needs s (s.shortNameFields ++ []) s.hereinafterNote := s.shortName_needs.bind fun _ => .pure _
  rwa [List.append_nil] at h

theorem periodical_needs (short : Option Text) : Needs s [.container] (s.periodical short) :=
  (Needs.given .container).bind fun name => (Needs.abbreviate name short).bind fun _ => .pure _

/-! ## Full citations -/

theorem fullBook_demands (b : Book) : Demands s [.title] (s.fullBook b) :=
  (Needs.given .title).bind_demands fun _ => (s.publication_demands ..).bind_within
    (fun _ => (Needs.pure _).toDemands) (List.Subset.refl _)

theorem fullChapter_demands (c : Chapter) : Demands s [.title, .container] (s.fullChapter c) :=
  (Needs.given .title).bind_demands fun _ => (Needs.given .container).bind_demands fun _ =>
    (s.publication_demands ..).bind_within (fun _ => (Needs.pure _).toDemands) (List.Subset.refl _)

theorem fullArticle_needs (a : Article) :
    Needs s ([.title, .page, .container] ++ if a.consecutive then [.volume] else []) (s.fullArticle a) := by
  refine (Needs.given .title).bind fun title => (Needs.given .page).bind fun page => ?_
  refine (s.periodical_needs _).bind fun journal => ?_
  cases a.consecutive with
  | true => exact (Needs.given .volume).bind fun _ => .pure _
  | false => exact .pure _

theorem fullManuscript_needs (m : Manuscript) :
    Needs s (.title :: if (nonEmpty m.container).isSome then [.container] else []) (s.fullManuscript m) := by
  unfold fullManuscript
  refine (Needs.given .title).bind fun title => ?_
  cases nonEmpty m.container with
  | some _ =>
    refine (s.periodical_needs _).bind fun journal => (Needs.pure _).bind fun place => ?_
    cases m.pinBasis <;> cases nonEmpty m.page <;> exact .pure _
  | none =>
    refine (Needs.pure _).bind fun place => ?_
    cases m.pinBasis <;> cases nonEmpty m.page <;> exact .pure _

theorem longCase_needs (c : Case) (pincite : Option Text) :
    Needs s [.title, .reporter, .volume, .page] (liftM (s.longCase c pincite) : Editing Styled) := by
  unfold longCase
  simp only [Editing.liftM_bind]
  exact (Needs.given .title).bind fun _ => (Needs.given .reporter).bind fun _ => (Needs.given .volume).bind fun _ =>
    (Needs.given .page).bind fun _ => .pure _

/-- The short name requires the title at most. -/
theorem shortNameFields_subset : s.shortNameFields ⊆ [.title] := by
  unfold shortNameFields
  split
  · exact List.nil_subset _
  · exact List.Subset.refl _

/-- The note of the short name demands the title at most. -/
theorem putTogether_demands (hereinafter : Bool) (pincite : Option Text) (parts : FullParts) :
    Demands s (if hereinafter then s.shortNameFields else []) (s.putTogether hereinafter pincite parts) := by
  unfold putTogether
  cases hereinafter with
  | true => exact s.hereinafterNote_needs.toDemands.bind_within (fun _ => (Needs.pure _).toDemands) (List.nil_subset _)
  | false => exact (Needs.pure _).bind_demands fun _ => (Needs.pure _).toDemands

theorem full_demands (hereinafter : Bool) (pincite : Option Text) :
    Demands s s.fullFields (s.full hereinafter pincite) := by
  -- The title is asked for first, so the note of the short name asks for nothing new.
  have hnote : (if hereinafter then s.shortNameFields else []) ⊆ [.title] := by
    split
    · exact s.shortNameFields_subset
    · exact List.nil_subset _
  have hnote' {fs : List Field} : (if hereinafter then s.shortNameFields else []) ⊆ Field.title :: fs :=
    List.Subset.trans hnote (List.cons_subset_cons _ (List.nil_subset fs))
  unfold full fullFields
  cases s.work with
  | book b => exact (s.fullBook_demands b).bind_within (s.putTogether_demands _ _) hnote
  | chapter c => exact (s.fullChapter_demands c).bind_within (s.putTogether_demands _ _) hnote'
  | article a => exact (s.fullArticle_needs a).toDemands.bind_within (s.putTogether_demands _ _) hnote'
  | manuscript m =>
    exact (s.fullManuscript_needs m).toDemands.bind_within (s.putTogether_demands _ _) hnote'
  | case c => exact (s.longCase_needs c pincite).toDemands

/-! ## Short citations -/

theorem shortCase_demands (pincite : Option Text) :
    Demands s ([.reporter, .volume, .page] ++ s.shortNameFields) (s.shortCase pincite) :=
  (Needs.given .reporter).bind_demands fun _ => (Needs.given .volume).bind_demands fun _ =>
    (Needs.given .page).bind_demands fun _ => s.shortName_needs.toDemands.bind_within
      (fun _ => (Needs.pure _).toDemands) (List.nil_subset _)

theorem shortHead_demands (hereinafter : Bool) :
    Demands s (if s.shortAuthors.isEmpty || hereinafter then s.shortNameFields else []) (s.shortHead hereinafter) := by
  unfold shortHead
  cases hauthors : s.shortAuthors.isEmpty with
  | true =>
    simp only [hauthors, if_true, Bool.true_or]
    exact s.shortName_needs.toDemands
  | false =>
    simp only [hauthors, Bool.false_eq_true, if_false, Bool.false_or]
    cases hereinafter with
    | true => exact s.shortName_needs.toDemands.bind_within (fun _ => (Needs.pure _).toDemands) (List.nil_subset _)
    | false => exact (Needs.pure _).toDemands

theorem short_demands (note : Int) (hereinafter : Bool) (pincite : Option Text) :
    Demands s (s.shortFields hereinafter) (s.short note hereinafter pincite) := by
  unfold short shortFields
  split
  · exact s.shortCase_demands pincite
  · refine (s.shortHead_demands hereinafter).bind_within (fun head => ?_) (List.nil_subset _)
    have hnumeral : Demands s [] (liftM (Numeral.write note) : Editing Text) := by
      refine .of_fails fun k e he => ?_
      obtain ⟨rfl, -⟩ := Numeral.write_error he
      rfl
    exact hnumeral.bind_within (fun _ => (Needs.pure _).toDemands) (List.nil_subset _)

/-! ## All forms -/

theorem inForm_demands (form : Form) (pincite : Option Text) :
    Demands s (s.required form) (s.inForm form pincite) := by
  cases form with
  | full hereinafter => exact s.full_demands _ pincite
  | short note hereinafter => exact s.short_demands _ _ pincite
  | id capitalized repeated => exact (Needs.pure _).toDemands
  | longCase =>
    unfold inForm
    cases hw : s.work with
    | case c =>
      have hfields : s.required .longCase = [.title, .reporter, .volume, .page] := by
        simp [required, isCase, fullFields, hw, Work.kind]
      rw [hfields]
      exact (s.longCase_needs c pincite).toDemands
    | book | chapter | article | manuscript =>
      have hfields : s.required .longCase = [] := by simp [required, isCase, hw, Work.kind]
      rw [hfields]
      exact .of_fails fun _ _ h => by
        cases h
        rfl
  | shortCase =>
    unfold inForm
    cases hw : s.work with
    | case c =>
      have hfields : s.required .shortCase = [.reporter, .volume, .page] ++ s.shortNameFields := by
        simp [required, isCase, shortFields, hw, Work.kind]
      rw [hfields]
      exact s.shortCase_demands pincite
    | book | chapter | article | manuscript =>
      have hfields : s.required .shortCase = [] := by simp [required, isCase, hw, Work.kind]
      rw [hfields]
      exact .of_fails fun _ _ h => by
        cases h
        rfl

/-- **A citation demands the fields of its form**, if its pincite names a place. -/
theorem cite_demands (form : Form) {pincite pin parenthetical : Option Text}
    (hpin : Pincite.clean s.id pincite = .ok pin) : Demands s (s.required form) (s.cite form pincite parenthetical) := by
  unfold cite citeStyled
  rw [hpin]
  exact ((s.inForm_demands form pin).bind_within (fun _ => (Needs.pure _).toDemands) (List.nil_subset _)).map _

/-- What any form requires is what the full citation requires. -/
theorem required_subset (form : Form) : s.required form ⊆ s.fullFields := by
  have hshort (hereinafter : Bool) : s.shortFields hereinafter ⊆ s.fullFields := by
    have htitle {fs : List Field} : s.shortNameFields ⊆ Field.title :: fs :=
      List.Subset.trans s.shortNameFields_subset (List.cons_subset_cons _ (List.nil_subset fs))
    unfold shortFields
    cases hw : s.work with
    | case c =>
      have hcase : s.isCase = true := by simp [isCase, hw, Work.kind]
      simp only [hcase, if_true, fullFields, hw]
      exact List.append_subset.mpr ⟨by simp, htitle⟩
    | book | chapter | article | manuscript =>
      have hcase : s.isCase = false := by simp [isCase, hw, Work.kind]
      simp only [hcase, Bool.false_eq_true, if_false, fullFields, hw]
      split
      · exact htitle
      · exact List.nil_subset _
  cases form with
  | full => exact List.Subset.refl _
  | short _ hereinafter => exact hshort hereinafter
  | id => exact List.nil_subset _
  | longCase =>
    simp only [required]
    split
    · exact List.Subset.refl _
    · exact List.nil_subset _
  | shortCase =>
    simp only [required]
    split
    · exact hshort false
    · exact List.nil_subset _

/-- **A citation that fails for a missing field** names the source, no note, and the first field that its form requires
and the source lacks. -/
theorem cite_missing {form : Form} {pincite parenthetical : Option Text} {k : Desk} {id : Text} {field : Field}
    {note : Option Int}
    (h : (outcome (s.cite form pincite parenthetical) k).1 = .error (.missingField id field note)) :
    id = s.id ∧ note = none ∧ s.firstLacking form = some field := by
  cases hpin : Pincite.clean s.id pincite with
  | error e =>
    have hclean : (outcome (s.cite form pincite parenthetical) k).1 = .error e := by
      unfold cite citeStyled
      rw [hpin]
      rfl
    rw [hclean, Except.error.injEq] at h
    obtain ⟨p, -, -, rfl⟩ := Pincite.clean_error hpin
    cases h
  | ok pin =>
    have hdemands : Demands s (s.required form) (s.cite form pincite parenthetical) := s.cite_demands form hpin
    cases hlacking : s.firstLacking form with
    | none => cases hdemands.otherwise hlacking k _ h
    | some f =>
      rw [hdemands.lacking f hlacking k] at h
      cases h
      exact ⟨rfl, rfl, rfl⟩

end Source

end Footcite
