import Footcite.Proofs.Table

/-!
# Answers from the tables

The answers that the journals keep are those of their tables (`Journals.Serves`), so keeping them changes no answer:
what `Journals.resolve` says is settled by the tables alone (`Journals.Serves.resolve`). Work at a desk is steady for
two tables when its end is the same at every desk that they serve (`Editing.Steady`). Steady work done in sequence is
steady (`Editing.Steady.bind`).

What such work may do at a desk is said once (`Editing.Asking`): it asks for abbreviations and puts events into the log,
events that name no notes but some. All such work is steady (`Editing.Asking.steady`), and so the log of it names no
others (`Editing.Asking.keeps`).
-/

namespace Footcite

/-! ## The journals -/

/-- **The journals answer from these two tables**, and what they have answered is kept. -/
structure Journals.Serves (user bundled : Table Text) (j : Journals) : Prop where
  user : j.user = user
  bundled : j.bundled = bundled
  answers : ∀ name a, j.answers.get? name = some a → a = j.lookup name

namespace Journals

variable {user bundled : Table Text} {j j' : Journals}

/-- New journals answer from their tables. -/
theorem ofTables_serves (user bundled : Table Text) :
    (ofTables user bundled).Serves (keyed user) (keyed bundled) := by
  refine ⟨rfl, rfl, ?_⟩
  intro name a h
  cases h

/-- An abbreviation depends on the tables alone. -/
theorem lookup_congr (hu : j.user = j'.user) (hb : j.bundled = j'.bundled) (name : Text) :
    j.lookup name = j'.lookup name := by
  unfold lookup
  rw [hu, hb]

namespace Serves

/-- An answer is the one that the tables give. -/
theorem answer_fst (h : j.Serves user bundled) (name : Text) : (j.answer name).1 = j.lookup name := by
  unfold answer
  split
  · next a ha => exact h.answers name a ha
  · rfl

/-- Answering keeps the journals answering from their tables. -/
theorem answer_snd (h : j.Serves user bundled) (name : Text) : (j.answer name).2.Serves user bundled := by
  unfold answer
  split
  · exact h
  · refine ⟨h.user, h.bundled, ?_⟩
    intro name' a ha
    simp only [Table.get?_set] at ha
    split at ha
    · next hn =>
      subst hn
      cases ha
      rfl
    · exact h.answers name' a ha

/-- **What the journals say is settled by the tables.** -/
theorem resolve (h : j.Serves user bundled) (h' : j'.Serves user bundled) (name : Text) (override : Option Text) :
    (j.resolve name override).1 = (j'.resolve name override).1 ∧ (j.resolve name override).2.Serves user bundled := by
  unfold Journals.resolve
  split
  · exact ⟨rfl, h⟩
  · refine ⟨?_, h.answer_snd _⟩
    rw [h.answer_fst, h'.answer_fst]
    exact lookup_congr (h.user.trans h'.user.symm) (h.bundled.trans h'.bundled.symm) _

end Serves

end Journals

/-! ## Events -/

/-- The event names no note but those that are shown. -/
def Event.Names (shown : Int → Prop) : Event → Prop
  | .decided note _ _ => shown note
  | _ => True

/-! ## Work at the desk -/

namespace Editing

variable {user bundled : Table Text} {α β : Type}

/-- **The work ends in the same way at every desk that the tables serve**, and they serve the desk afterwards. -/
def Steady (user bundled : Table Text) (x : Editing α) : Prop :=
  ∃ r, ∀ k, k.journals.Serves user bundled → ∃ k', outcome x k = (r, k') ∧ k'.journals.Serves user bundled

namespace Steady

theorem pure (a : α) : Steady user bundled (Pure.pure a) := ⟨.ok a, fun k hk => ⟨k, rfl, hk⟩⟩

/-- An answer that looks at no desk. -/
theorem liftM (x : Except Failure α) : Steady user bundled (MonadLiftT.monadLift x : Editing α) :=
  ⟨x, fun k hk => ⟨k, rfl, hk⟩⟩

/-- **Steady work one after another** is steady. -/
theorem bind {x : Editing α} {f : α → Editing β} (hx : Steady user bundled x) (hf : ∀ a, Steady user bundled (f a)) :
    Steady user bundled (x >>= f) := by
  obtain ⟨r, hr⟩ := hx
  cases r with
  | error e =>
    refine ⟨.error e, fun k hk => ?_⟩
    obtain ⟨k₁, ho, hk₁⟩ := hr k hk
    exact ⟨k₁, by rw [outcome_bind, ho], hk₁⟩
  | ok a =>
    obtain ⟨r', hr'⟩ := hf a
    refine ⟨r', fun k hk => ?_⟩
    obtain ⟨k₁, ho, hk₁⟩ := hr k hk
    obtain ⟨k₂, ho', hk₂⟩ := hr' k₁ hk₁
    exact ⟨k₂, by rw [outcome_bind, ho]; exact ho', hk₂⟩

theorem map {x : Editing α} (f : α → β) (hx : Steady user bundled x) : Steady user bundled (f <$> x) := by
  rw [← bind_pure_comp]
  exact hx.bind fun a => pure (f a)

/-- The log is no matter. -/
theorem note (e : Event) : Steady user bundled (Editing.note e) := ⟨.ok (), fun _ hk => ⟨_, rfl, hk⟩⟩

/-- The abbreviation of a journal is settled by the tables. -/
theorem abbreviate (name : Text) (override : Option Text) : Steady user bundled (Editing.abbreviate name override) := by
  let j : Journals := ⟨user, bundled, [], []⟩
  have hj : j.Serves user bundled := by
    refine ⟨rfl, rfl, ?_⟩
    intro name a h
    cases h
  refine ⟨.ok (j.resolve name override).1.text, fun k hk => ?_⟩
  obtain ⟨hr, hs⟩ := hk.resolve hj name override
  exact ⟨_, by rw [← hr]; rfl, hs⟩

/-- What steady work gives at one desk that the tables serve, it gives at another. -/
theorem gives {x : Editing α} (hx : Steady user bundled x) {k k' : Desk} {a : α} (hk : k.journals.Serves user bundled)
    (h : Gives x k a k') : k'.journals.Serves user bundled ∧
      ∀ k₁ : Desk, k₁.journals.Serves user bundled → (outcome x k₁).1 = .ok a := by
  obtain ⟨r, hr⟩ := hx
  obtain ⟨k₂, ho, hk₂⟩ := hr k hk
  unfold Gives at h
  rw [h, Prod.mk.injEq] at ho
  obtain ⟨rfl, rfl⟩ := ho
  refine ⟨hk₂, fun k₁ hk₁ => ?_⟩
  obtain ⟨k₃, ho, _⟩ := hr k₁ hk₁
  rw [ho]

/-- Work whose failures are changed is steady. -/
theorem adapt {x : Editing α} (f : Failure → Failure) (hx : Steady user bundled x) :
    Steady user bundled (ExceptT.adapt f x : Editing α) := by
  obtain ⟨r, hr⟩ := hx
  refine ⟨r.mapError f, fun k hk => ?_⟩
  obtain ⟨k', ho, hk'⟩ := hr k hk
  exact ⟨k', by rw [outcome_adapt, ho], hk'⟩

end Steady

/-- The desk has logged no notes but those that are shown. -/
def Logs (shown : Int → Prop) (k : Desk) : Prop := ∀ e ∈ k.log, e.Names shown

theorem note_keeps {shown : Int → Prop} (e : Event) (he : e.Names shown) : Keeps (Logs shown) (note e) :=
  .modify fun _ hk e' h => (List.mem_append.mp h).elim (hk e') fun h => List.mem_singleton.mp h ▸ he

/-- A name that is abbreviated by rule is no matter of notes. -/
theorem abbreviate_keeps {shown : Int → Prop} (name : Text) (override : Option Text) :
    Keeps (Logs shown) (abbreviate name override) := by
  refine .get_bind fun k hk => (Keeps.set fun e he => ?_).bind fun _ => .pure _
  rcases List.mem_append.mp he with he | he
  · exact hk e he
  · obtain ⟨n, -, rfl⟩ := List.mem_map.mp he
    trivial

/-- **Work that asks the journals for abbreviations**, and does not look at the desk otherwise: answers that need no desk,
events for the log and abbreviations, one after another. The events name no notes but those that are shown. -/
inductive Asking (shown : Int → Prop) : {α : Type} → Editing α → Prop
  | liftM {α : Type} (x : Except Failure α) : Asking shown (MonadLiftT.monadLift x : Editing α)
  | note (e : Event) : e.Names shown → Asking shown (Editing.note e)
  | abbreviate (name : Text) (override : Option Text) : Asking shown (Editing.abbreviate name override)
  | adapt {α : Type} {x : Editing α} (f : Failure → Failure) :
      Asking shown x → Asking shown (ExceptT.adapt f x : Editing α)
  | bind {α β : Type} {x : Editing α} {f : α → Editing β} :
      Asking shown x → (∀ a, Asking shown (f a)) → Asking shown (x >>= f)

namespace Asking

variable {shown : Int → Prop}

theorem pure (a : α) : Asking shown (Pure.pure a : Editing α) := .liftM (.ok a)

theorem throw (e : Failure) : Asking shown (MonadExcept.throw e : Editing α) := .liftM (.error e)

theorem map {x : Editing α} (f : α → β) (hx : Asking shown x) : Asking shown (f <$> x) := by
  rw [← bind_pure_comp]
  exact hx.bind fun a => pure (f a)

theorem mapM {f : α → Editing β} (hf : ∀ a, Asking shown (f a)) : ∀ xs : List α, Asking shown (xs.mapM f)
  | [] => by
    rw [List.mapM_nil]
    exact .pure _
  | x :: xs => by
    rw [List.mapM_cons]
    exact (hf x).bind fun _ => (mapM hf xs).bind fun _ => .pure _

/-- **Work that only asks is steady.** -/
theorem steady {x : Editing α} (h : Asking (fun _ => True) x) : Steady user bundled x := by
  induction h with
  | liftM x => exact .liftM x
  | note e _ => exact .note e
  | abbreviate name override => exact .abbreviate name override
  | adapt f _ ih => exact ih.adapt f
  | bind _ _ ihx ihf => exact ihx.bind ihf

/-- **Work that only asks logs** no notes but those that are shown. -/
theorem keeps {x : Editing α} (h : Asking shown x) : Keeps (Logs shown) x := by
  induction h with
  | liftM x => exact .liftM x
  | note e he => exact note_keeps e he
  | abbreviate name override => exact abbreviate_keeps name override
  | adapt f _ ih => exact ih
  | bind _ _ ihx ihf => exact ihx.bind ihf

end Asking

end Editing

end Footcite
