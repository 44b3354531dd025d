import Footcite.Proofs.Citation.Required
import Footcite.Proofs.Note.Anchors
import Footcite.Proofs.Pincite.Place
import Footcite.Proofs.Walk

/-!
# Faults in reading order

A segment of a note is at fault (`Segment.AtFault`) when it mentions a source that the library does not have, when its
pincite is a bare "at", when its source lacks a field that the chosen form requires, or when it refers to a name that
anchors no note. Whether it is depends on the ledger of what came before it; a segment that is not at fault passes and
leaves the ledger to the next (`Segment.Passes`, `Segment.Passes.not_atFault`).

Work reads segments (`Reading`) if they pass when it ends well, and if it fails, for a reason that lies in a note, with
the first of them at fault (`StoppedAt`). What is done one after another reads one after another (`Reading.bind`).
-/

namespace Footcite

variable (library : Library) (notes : List Note)

/-- **Why a segment of a note is at fault**, read with the ledger `l`. -/
inductive Segment.AtFault (l : Ledger) (n : Note) : Segment → Failure → Prop
  | unknownSource {m : Mention} {inner : List Segment} :
      library.get? m.source = none → AtFault l n (.mention m inner) (.unknownSource m.source n.number)
  | bareAt {m : Mention} {inner : List Segment} {s : Source} {p : Text} :
      library.get? m.source = some s → m.pincite = some p → p.trim.lower = "at" →
      AtFault l n (.mention m inner) (.emptyPincite p.trim s.id (some n.number))
  /-- The source lacks a field that the form requires which is chosen for the citation. -/
  | lacking {m : Mention} {inner : List Segment} {s : Source} {pincite : Option Text} {opens : Bool} {form : Form}
      {l' : Ledger} {f : Field} :
      library.get? m.source = some s → Pincite.clean s.id m.pincite = .ok pincite →
      l.choose s n.position n.number pincite opens = .ok (form, l') → s.firstLacking form = some f →
      AtFault l n (.mention m inner) (.missingField s.id f (some n.number))
  | neverAnchored {ref : Text} :
      (∀ n' ∈ notes, ¬n'.AnchoredAs ref) → AtFault l n (.use ref) (.neverAnchored ref n.number)

/-- **A segment that passes**, and the ledger after it. -/
inductive Segment.Passes (l : Ledger) (n : Note) : Segment → Ledger → Prop
  | text (t : Text) : Passes l n (.text t) l
  | mention {m : Mention} {inner : List Segment} {s : Source} {pincite : Option Text} {opens : Bool} {form : Form}
      {l' : Ledger} :
      library.get? m.source = some s → Pincite.clean s.id m.pincite = .ok pincite →
      l.choose s n.position n.number pincite opens = .ok (form, l') → s.firstLacking form = none →
      Passes l n (.mention m inner) (l'.enterCitation s.id n.position m.inString pincite)
  | breaker (ordinal : Nat) : Passes l n (.breaker ordinal) (l.interrupt n.position)
  | anchor (ref : Text) : Passes l n (.anchor ref) l
  | use {ref : Text} {n' : Note} : n' ∈ notes → n'.AnchoredAs ref → Passes l n (.use ref) l

/-- Segments of notes that pass one after another. -/
inductive Passed : Ledger → List (Note × Segment) → Ledger → Prop
  | done (l : Ledger) : Passed l [] l
  | next {l l₁ l' : Ledger} {n : Note} {s : Segment} {rest : List (Note × Segment)} :
      s.Passes library notes l n l₁ → Passed l₁ rest l' → Passed l ((n, s) :: rest) l'

/-- The segments of a note in reading order, a mention before those of its parenthetical. -/
def Note.parts (n : Note) : List (Note × Segment) := (Segment.allParts n.segments).map (n, ·)

/-- **The failure is that of the first segment at fault**, which stands in the note `n`: all segments before it pass. -/
def StoppedAt (l : Ledger) (parts : List (Note × Segment)) (n : Note) (e : Failure) : Prop :=
  ∃ before s after l', parts = before ++ (n, s) :: after ∧ Passed library notes l before l' ∧
    s.AtFault library notes l' n e

variable {library notes}

/-! ## Passing and being at fault -/

/-- Where in a sentence a citation stands is no matter for the fields that its form requires, nor for the ledger. -/
theorem Ledger.choose_congr {l l₁ l₂ : Ledger} {s : Source} {position number : Int} {pincite : Option Text}
    {opens opens' : Bool} {form form' : Form} (h : l.choose s position number pincite opens = .ok (form, l₁))
    (h' : l.choose s position number pincite opens' = .ok (form', l₂)) :
    s.firstLacking form = s.firstLacking form' ∧ l₁ = l₂ := by
  unfold choose at h h'
  by_cases hrep : l.repeats s.id position = true
  · rw [if_pos hrep] at h h'
    cases h
    cases h'
    exact ⟨rfl, rfl⟩
  · rw [if_neg hrep] at h h'
    rw [h, Except.ok.injEq, Prod.mk.injEq] at h'
    obtain ⟨rfl, rfl⟩ := h'
    exact ⟨rfl, rfl⟩

/-- **What passes is not at fault.** -/
theorem Segment.Passes.not_atFault {l l' : Ledger} {n : Note} {s : Segment} (h : s.Passes library notes l n l')
    (e : Failure) : ¬s.AtFault library notes l n e := by
  intro hfault
  cases h with
  | text | breaker | anchor => cases hfault
  | mention hs hclean hchoose hnone =>
    cases hfault with
    | unknownSource hunknown =>
      rw [hs] at hunknown
      cases hunknown
    | bareAt hs' hp hat =>
      rw [hp, Pincite.clean, if_pos hat] at hclean
      cases hclean
    | lacking hs' hclean' hchoose' hsome =>
      rw [hs, Option.some.injEq] at hs'
      subst hs'
      rw [hclean, Except.ok.injEq] at hclean'
      subst hclean'
      rw [← (Ledger.choose_congr hchoose hchoose').1, hnone] at hsome
      cases hsome
  | use hmem hanchored =>
    cases hfault with
    | neverAnchored hnone => exact hnone _ hmem hanchored

/-- A segment that passes leaves one ledger. -/
theorem Segment.Passes.unique {l l₁ l₂ : Ledger} {n : Note} {s : Segment} (h : s.Passes library notes l n l₁)
    (h' : s.Passes library notes l n l₂) : l₁ = l₂ := by
  cases h with
  | text | breaker | anchor | use =>
    cases h'
    rfl
  | mention hs hclean hchoose =>
    cases h' with
    | mention hs' hclean' hchoose' =>
      rw [hs, Option.some.injEq] at hs'
      subst hs'
      rw [hclean, Except.ok.injEq] at hclean'
      subst hclean'
      rw [(Ledger.choose_congr hchoose hchoose').2]

/-- A fault names the note that it lies in. -/
theorem Segment.AtFault.note? {l : Ledger} {n : Note} {s : Segment} {e : Failure}
    (h : s.AtFault library notes l n e) : e.note? = some n.number := by
  cases h <;> rfl

theorem Passed.append {l l₁ l' : Ledger} {parts parts' : List (Note × Segment)} (h : Passed library notes l parts l₁)
    (h' : Passed library notes l₁ parts' l') : Passed library notes l (parts ++ parts') l' := by
  induction h with
  | done => exact h'
  | next hs _ ih => exact .next hs (ih h')

/-- **Where all segments pass, none is the first at fault.** -/
theorem Passed.not_stoppedAt {l l' : Ledger} {parts : List (Note × Segment)} (h : Passed library notes l parts l')
    (n : Note) (e : Failure) : ¬StoppedAt library notes l parts n e := by
  rintro ⟨before, s, after, l₁, rfl, hbefore, hs⟩
  induction hbefore with
  | done =>
    cases h with
    | next hp _ => exact hp.not_atFault e hs
  | next hp _ ih =>
    cases h with
    | next hp' hrest =>
      cases hp.unique hp'
      exact ih hrest hs

/-- What stops in the second of two parts, the first of which passes. -/
theorem StoppedAt.after {l l₁ : Ledger} {parts parts' : List (Note × Segment)} {n : Note} {e : Failure}
    (hp : Passed library notes l parts l₁) (h : StoppedAt library notes l₁ parts' n e) :
    StoppedAt library notes l (parts ++ parts') n e := by
  obtain ⟨before, s, after, l', rfl, hbefore, hs⟩ := h
  exact ⟨parts ++ before, s, after, l', (List.append_assoc ..).symm, hp.append hbefore, hs⟩

theorem StoppedAt.before {l : Ledger} {parts : List (Note × Segment)} {n : Note} {e : Failure}
    (h : StoppedAt library notes l parts n e) (parts' : List (Note × Segment)) :
    StoppedAt library notes l (parts ++ parts') n e := by
  obtain ⟨before, s, after, l', rfl, hbefore, hs⟩ := h
  exact ⟨before, s, after ++ parts', l', by simp, hbefore, hs⟩

/-! ## Work that reads segments -/

/-- **The work reads these segments**: if it ends well, they pass, and if it ends with a failure that lies in a note,
this is the failure of the first of them at fault. -/
structure Reading {α : Type} (library : Library) (notes : List Note) (l : Ledger) (parts : List (Note × Segment))
    (x : Editing (α × Ledger)) : Prop where
  passed : ∀ k a l' k', Gives x k (a, l') k' → Passed library notes l parts l'
  stopped : ∀ k e, (outcome x k).1 = .error e → e.ofNote = true → ∃ n, StoppedAt library notes l parts n e

namespace Reading

variable {α β : Type} {l : Ledger} {parts parts' : List (Note × Segment)}

theorem pure (a : α) : Reading library notes l [] (Pure.pure (a, l)) := by
  refine ⟨fun k a' l' k' h => ?_, fun k e h => by cases h⟩
  rw [gives_pure] at h
  obtain ⟨he, -⟩ := h
  cases he
  exact .done l

/-- One work after another reads the segments of both. -/
theorem bind {x : Editing (α × Ledger)} {f : α × Ledger → Editing (β × Ledger)}
    (hx : Reading library notes l parts x) (hf : ∀ a l₁, Reading library notes l₁ parts' (f (a, l₁))) :
    Reading library notes l (parts ++ parts') (x >>= f) := by
  refine ⟨fun k b l' k' h => ?_, fun k e h he => ?_⟩
  · rw [gives_bind] at h
    obtain ⟨⟨a, l₁⟩, k₁, h₁, h₂⟩ := h
    exact (hx.passed k a l₁ k₁ h₁).append ((hf a l₁).passed k₁ b l' k' h₂)
  · rcases outcome_bind_error h with h | ⟨⟨a, l₁⟩, k₁, ha, h⟩
    · obtain ⟨n, hn⟩ := hx.stopped k e h he
      exact ⟨n, hn.before parts'⟩
    · obtain ⟨n, hn⟩ := (hf a l₁).stopped k₁ e h he
      exact ⟨n, hn.after (hx.passed k a l₁ k₁ ha)⟩

/-- Work may be followed by a change of its answer. -/
theorem answer {x : Editing (α × Ledger)} (f : α → β) (hx : Reading library notes l parts x) :
    Reading library notes l parts (x >>= fun (a, l₁) => Pure.pure (f a, l₁)) := by
  have h := hx.bind (f := fun (a, l₁) => Pure.pure (f a, l₁)) fun a l₁ => Reading.pure (f a)
  rwa [List.append_nil] at h

/-- A single segment that passes when the work ends well, and is at fault when it fails in a note. -/
theorem of_segment {x : Editing (α × Ledger)} {n : Note} {s : Segment}
    (hpass : ∀ k a l' k', Gives x k (a, l') k' → s.Passes library notes l n l')
    (hstop : ∀ k e, (outcome x k).1 = .error e → e.ofNote = true → s.AtFault library notes l n e) :
    Reading library notes l [(n, s)] x :=
  ⟨fun k a l' k' h => .next (hpass k a l' k' h) (.done l'),
    fun k e h he => ⟨n, [], s, [], l, rfl, .done l, hstop k e h he⟩⟩

/-- A segment that only the ledger is told of. -/
theorem of_passes (a : α) {n : Note} {s : Segment} {l' : Ledger} (h : s.Passes library notes l n l') :
    Reading library notes l [(n, s)] (Pure.pure (a, l')) := by
  refine .of_segment (fun k a' l'' k' hg => ?_) fun k e h => by cases h
  rw [gives_pure] at hg
  obtain ⟨he, -⟩ := hg
  cases he
  exact h

end Reading

end Footcite
