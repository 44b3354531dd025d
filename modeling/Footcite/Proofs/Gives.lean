import Footcite.Resolution.Draft
import Mathlib.Data.List.Forall2

/-!
# What work gives

Work that may fail and that changes a state (`Editing`, `Logging`) is opened from its end: `Gives x s a s'` says that
the work `x`, begun in `s`, ends well with `a` and leaves `s'`. A sequence gives what its parts give one after another
(`gives_bind`), so that a run taken apart this way shows each of its steps. It fails for the reasons of its parts
(`FailsFor.bind`), and keeps true of the state what they all do (`Keeps.bind`).
-/

namespace Footcite

/-! ## Answers -/

/-- What follows from a step that succeeds and is followed by another. -/
theorem Except.bind_ok {ε α β : Type} {x : Except ε α} {f : α → Except ε β} {b : β} (h : x >>= f = .ok b) :
    ∃ a, x = .ok a ∧ f a = .ok b := by
  cases x with
  | error e => cases h
  | ok a => exact ⟨a, rfl, h⟩

/-- What follows from a failure of two answers in a row. -/
theorem Except.bind_error {ε α β : Type} {x : Except ε α} {f : α → Except ε β} {e : ε} (h : x >>= f = .error e) :
    x = .error e ∨ ∃ a, x = .ok a ∧ f a = .error e := by
  cases x with
  | error e' =>
    cases h
    exact .inl rfl
  | ok a => exact .inr ⟨a, rfl, h⟩

/-- What fails for several things fails for one of them. -/
theorem Except.mapM_error {ε α β : Type} {f : α → Except ε β} {e : ε} : ∀ {xs : List α}, xs.mapM f = .error e →
    ∃ x ∈ xs, f x = .error e
  | [], h => by cases h
  | x :: xs, h => by
    rw [List.mapM_cons] at h
    rcases Except.bind_error h with h | ⟨_, -, h⟩
    · exact ⟨x, List.mem_cons_self, h⟩
    · rcases Except.bind_error h with h | ⟨_, -, h⟩
      · obtain ⟨y, hy, he⟩ := Except.mapM_error h
        exact ⟨y, List.mem_cons_of_mem _ hy, he⟩
      · cases h

/-- An answer that is no failure, of which holds what holds of its end. -/
theorem Except.exists_ok_that {ε α : Type} {x : Except ε α} {p : α → Bool} (h : x.toOption.any p = true) :
    ∃ a, x = .ok a ∧ p a = true := by
  cases x with
  | error e => cases h
  | ok a => exact ⟨a, rfl, h⟩

/-- An answer that is this failure, whatever would have come of a success. -/
theorem Except.eq_error_of_map {ε α β : Type} {x : Except ε α} {f : α → β} {e : ε} (h : x.map f = .error e) :
    x = .error e := by
  cases x with
  | error e' =>
    cases h
    rfl
  | ok a => cases h

/-! ## Work -/

section Steps

variable {ε σ α β : Type} {s s' : σ}

/-- How work ends that is begun in the state `s`, and the state that it leaves. -/
def outcome (x : ExceptT ε (StateM σ) α) (s : σ) : Except ε α × σ := (x.run.run s).run

/-- The work, begun in the state `s`, ends well with `a` and leaves the state `s'`. -/
def Gives (x : ExceptT ε (StateM σ) α) (s : σ) (a : α) (s' : σ) : Prop := outcome x s = (.ok a, s')

/-- The work, begun in the state `s`, fails with `e` and leaves the state `s'`. -/
def Stops (x : ExceptT ε (StateM σ) α) (s : σ) (e : ε) (s' : σ) : Prop := outcome x s = (.error e, s')

/-- Work gives one thing only, and leaves one state. -/
theorem gives_unique {x : ExceptT ε (StateM σ) α} {a b : α} {s₁ s₂ : σ} (ha : Gives x s a s₁) (hb : Gives x s b s₂) :
    a = b ∧ s₁ = s₂ := by
  have h := ha.symm.trans hb
  simpa using h

theorem outcome_pure (a : α) (s : σ) : outcome (pure a : ExceptT ε (StateM σ) α) s = (.ok a, s) := rfl

theorem outcome_throw (e : ε) (s : σ) : outcome (throw e : ExceptT ε (StateM σ) α) s = (.error e, s) := rfl

theorem outcome_liftM (x : Except ε α) (s : σ) : outcome (liftM x : ExceptT ε (StateM σ) α) s = (x, s) := rfl

theorem outcome_adapt {ε' : Type} (f : ε → ε') (x : ExceptT ε (StateM σ) α) (s : σ) :
    outcome (ExceptT.adapt f x : ExceptT ε' (StateM σ) α) s = ((outcome x s).1.mapError f, (outcome x s).2) := rfl

theorem outcome_get (s : σ) : outcome (get : ExceptT ε (StateM σ) σ) s = (.ok s, s) := rfl

/-- The second part of a sequence is begun where the first left off, and not at all when that failed. -/
theorem outcome_bind (x : ExceptT ε (StateM σ) α) (f : α → ExceptT ε (StateM σ) β) (s : σ) :
    outcome (x >>= f) s = match outcome x s with
      | (.ok a, s₁) => outcome (f a) s₁
      | (.error e, s₁) => (.error e, s₁) := by
  show (StateT.run (ExceptT.run x >>= ExceptT.bindCont f) s).run = _
  rw [StateT.run_bind]
  show (match outcome x s with | (r, s₁) => ((ExceptT.bindCont f r).run s₁).run) = _
  rcases outcome x s with ⟨_ | _, s₁⟩ <;> rfl

theorem outcome_map (f : α → β) (x : ExceptT ε (StateM σ) α) (s : σ) :
    outcome (f <$> x) s = ((outcome x s).1.map f, (outcome x s).2) := by
  rw [← bind_pure_comp, outcome_bind]
  rcases outcome x s with ⟨_ | _, _⟩ <;> rfl

/-- A sequence stops where its first part does. -/
theorem Stops.bind {x : ExceptT ε (StateM σ) α} {e : ε} (h : Stops x s e s') (f : α → ExceptT ε (StateM σ) β) :
    Stops (x >>= f) s e s' := by
  rw [Stops, outcome_bind, h]

/-- A sequence stops where its second part does, begun where the first left off. -/
theorem Gives.stops {x : ExceptT ε (StateM σ) α} {f : α → ExceptT ε (StateM σ) β} {a : α} {e : ε} {s₁ : σ}
    (hx : Gives x s a s₁) (hf : Stops (f a) s₁ e s') : Stops (x >>= f) s e s' := by
  rw [Stops, outcome_bind, hx]
  exact hf

/-- What fails in its first part fails. -/
theorem outcome_bind_of_error {x : ExceptT ε (StateM σ) α} {f : α → ExceptT ε (StateM σ) β} {s : σ} {e : ε}
    (h : (outcome x s).1 = .error e) : (outcome (x >>= f) s).1 = .error e := by
  rw [outcome_bind]
  rcases ho : outcome x s with ⟨_ | a, s₁⟩
  · rw [ho] at h
    cases h
    rfl
  · rw [ho] at h
    cases h

/-- What fails has failed in its first part, or in its second where the first left off. -/
theorem outcome_bind_error {x : ExceptT ε (StateM σ) α} {f : α → ExceptT ε (StateM σ) β} {s : σ} {e : ε}
    (h : (outcome (x >>= f) s).1 = .error e) :
    (outcome x s).1 = .error e ∨ ∃ a s₁, Gives x s a s₁ ∧ (outcome (f a) s₁).1 = .error e := by
  rw [outcome_bind] at h
  unfold Gives
  rcases ho : outcome x s with ⟨e' | a, s₁⟩
  · rw [ho] at h
    cases h
    exact .inl rfl
  · rw [ho] at h
    exact .inr ⟨a, s₁, rfl, h⟩

@[simp] theorem gives_pure {a b : α} : Gives (pure a : ExceptT ε (StateM σ) α) s b s' ↔ a = b ∧ s = s' := by
  simp [Gives, outcome_pure]

@[simp] theorem gives_throw {e : ε} {a : α} : ¬Gives (throw e : ExceptT ε (StateM σ) α) s a s' := by
  simp [Gives, outcome_throw]

/-- An answer that looks at no state. -/
@[simp] theorem gives_liftM {x : Except ε α} {a : α} :
    Gives (liftM x : ExceptT ε (StateM σ) α) s a s' ↔ x = .ok a ∧ s = s' := by
  simp [Gives, outcome_liftM]

/-- A sequence gives what its second part gives where the first left off. -/
@[simp] theorem gives_bind {x : ExceptT ε (StateM σ) α} {f : α → ExceptT ε (StateM σ) β} {b : β} :
    Gives (x >>= f) s b s' ↔ ∃ a s₁, Gives x s a s₁ ∧ Gives (f a) s₁ b s' := by
  unfold Gives
  rw [outcome_bind]
  rcases outcome x s with ⟨_ | a, s₁⟩
  · simp
  · constructor
    · exact fun h => ⟨a, s₁, rfl, h⟩
    · rintro ⟨a', s₂, h, hf⟩
      cases h
      exact hf

@[simp] theorem gives_map {x : ExceptT ε (StateM σ) α} {f : α → β} {b : β} :
    Gives (f <$> x) s b s' ↔ ∃ a, Gives x s a s' ∧ f a = b := by
  rw [← bind_pure_comp, gives_bind]
  simp only [gives_pure]
  constructor
  · rintro ⟨a, s₁, hx, hf, rfl⟩
    exact ⟨a, hx, hf⟩
  · rintro ⟨a, hx, hf⟩
    exact ⟨a, s', hx, hf, rfl⟩

@[simp] theorem gives_get {a : σ} : Gives (get : ExceptT ε (StateM σ) σ) s a s' ↔ s = a ∧ s = s' := by
  show (Except.ok s, s) = (Except.ok a, s') ↔ _
  simp

@[simp] theorem gives_set {s₁ : σ} {u : PUnit} : Gives (set s₁ : ExceptT ε (StateM σ) PUnit) s u s' ↔ s₁ = s' := by
  show (Except.ok PUnit.unit, s₁) = (Except.ok u, s') ↔ _
  simp

@[simp] theorem gives_modify {f : σ → σ} {u : PUnit} :
    Gives (modify f : ExceptT ε (StateM σ) PUnit) s u s' ↔ f s = s' := by
  show (Except.ok PUnit.unit, f s) = (Except.ok u, s') ↔ _
  simp

/-- Work that looks at the state goes on with it. -/
theorem outcome_get_bind (f : σ → ExceptT ε (StateM σ) β) (s : σ) : outcome (get >>= f) s = outcome (f s) s := by
  rw [outcome_bind, outcome_get]

theorem gives_get_bind {f : σ → ExceptT ε (StateM σ) β} {b : β} : Gives (get >>= f) s b s' ↔ Gives (f s) s b s' := by
  rw [Gives, outcome_get_bind, Gives]

/-- Work that ends well gives something, of which holds what holds of its end. -/
theorem exists_gives_that {x : ExceptT ε (StateM σ) α} {p : α → Bool} (h : (outcome x s).1.toOption.any p = true) :
    ∃ a s', Gives x s a s' ∧ p a = true := by
  unfold Gives
  revert h
  rcases outcome x s with ⟨_ | a, s'⟩
  · intro h
    cases h
  · exact fun h => ⟨a, s', rfl, h⟩

/-- Work that ends well gives something. -/
theorem exists_gives {x : ExceptT ε (StateM σ) α} (h : (outcome x s).1.isOk = true) : ∃ a s', Gives x s a s' := by
  obtain ⟨a, s', hx, _⟩ := exists_gives_that (x := x) (p := fun _ => true) (s := s) (by
    cases hr : (outcome x s).1 with
    | error e => rw [hr] at h; cases h
    | ok a => rfl)
  exact ⟨a, s', hx⟩

/-- Work on each of several things: what holds of the state throughout, and of each thing with its answer. -/
theorem Gives.mapM {P : σ → Prop} {Q : α → β → Prop} {f : α → ExceptT ε (StateM σ) β}
    (hf : ∀ {a b s s'}, P s → Gives (f a) s b s' → Q a b ∧ P s') :
    ∀ {xs : List α} {ys : List β} {s s' : σ}, P s → Gives (xs.mapM f) s ys s' → List.Forall₂ Q xs ys ∧ P s'
  | [], _, _, _, hs, h => by
    rw [List.mapM_nil, gives_pure] at h
    obtain ⟨rfl, rfl⟩ := h
    exact ⟨.nil, hs⟩
  | x :: xs, _, _, _, hs, h => by
    simp only [List.mapM_cons, gives_bind, gives_pure] at h
    obtain ⟨y, s₁, hx, ys, s₂, hxs, rfl, rfl⟩ := h
    obtain ⟨hq, h₁⟩ := hf hs hx
    obtain ⟨hqs, h₂⟩ := Gives.mapM hf h₁ hxs
    exact ⟨.cons hq hqs, h₂⟩

/-- Work on each of several things ends well if it does on each, whatever the state it is begun in. -/
theorem exists_gives_mapM {f : α → ExceptT ε (StateM σ) β} : ∀ {xs : List α},
    (∀ a ∈ xs, ∀ s, ∃ b s', Gives (f a) s b s') → ∀ s, ∃ ys s', Gives (xs.mapM f) s ys s'
  | [], _, s => ⟨[], s, by simp⟩
  | x :: xs, h, s => by
    obtain ⟨hx, hxs⟩ := List.forall_mem_cons.mp h
    obtain ⟨b, s₁, hb⟩ := hx s
    obtain ⟨ys, s₂, hys⟩ := exists_gives_mapM hxs s₁
    refine ⟨b :: ys, s₂, ?_⟩
    simp only [List.mapM_cons, gives_bind, gives_pure]
    exact ⟨b, s₁, hb, ys, s₂, hys, rfl, rfl⟩

end Steps

/-! ## Work that fails for some reasons only -/

/-- **The work fails for these reasons only**, whatever the state it is begun in. -/
def FailsFor {ε σ α : Type} (P : ε → Prop) (x : ExceptT ε (StateM σ) α) : Prop :=
  ∀ s e, (outcome x s).1 = .error e → P e

namespace FailsFor

variable {ε σ α β : Type} {P Q : ε → Prop}

theorem pure (a : α) : FailsFor P (Pure.pure a : ExceptT ε (StateM σ) α) := fun _ _ h => by cases h

theorem throw {e : ε} (he : P e) : FailsFor P (MonadExcept.throw e : ExceptT ε (StateM σ) α) := by
  intro s e' h
  cases h
  exact he

/-- Work that always ends well does not fail for any reason. -/
theorem of_gives {x : ExceptT ε (StateM σ) α} (h : ∀ s, ∃ a s', Gives x s a s') : FailsFor P x := by
  intro s e he
  obtain ⟨a, s', hg⟩ := h s
  rw [hg] at he
  cases he

theorem imp {x : ExceptT ε (StateM σ) α} (hx : FailsFor P x) (h : ∀ e, P e → Q e) : FailsFor Q x :=
  fun s e he => h e (hx s e he)

theorem liftM {x : Except ε α} (hx : ∀ e, x = .error e → P e) :
    FailsFor P (MonadLiftT.monadLift x : ExceptT ε (StateM σ) α) := fun _ e h => hx e h

/-- Work one after another fails for the reasons of its parts, each begun with what the parts before can give. -/
theorem bind_gives {x : ExceptT ε (StateM σ) α} {f : α → ExceptT ε (StateM σ) β} (hx : FailsFor P x)
    (hf : ∀ {s a s'}, Gives x s a s' → FailsFor P (f a)) : FailsFor P (x >>= f) := by
  intro s e h
  rcases outcome_bind_error h with h | ⟨a, s₁, ha, h⟩
  · exact hx s e h
  · exact hf ha s₁ e h

theorem bind {x : ExceptT ε (StateM σ) α} {f : α → ExceptT ε (StateM σ) β} (hx : FailsFor P x)
    (hf : ∀ a, FailsFor P (f a)) : FailsFor P (x >>= f) := hx.bind_gives fun _ => hf _

theorem map {x : ExceptT ε (StateM σ) α} (f : α → β) (hx : FailsFor P x) : FailsFor P (f <$> x) := by
  rw [← bind_pure_comp]
  exact hx.bind fun a => pure (f a)

end FailsFor

/-! ## Work that keeps something true -/

/-- **The work keeps something true** of the state, however it ends. -/
def Keeps {ε σ α : Type} (P : σ → Prop) (x : ExceptT ε (StateM σ) α) : Prop := ∀ s, P s → P (outcome x s).2

namespace Keeps

variable {ε σ α β : Type} {P : σ → Prop}

theorem pure (a : α) : Keeps P (Pure.pure a : ExceptT ε (StateM σ) α) := fun _ h => h

theorem throw (e : ε) : Keeps P (MonadExcept.throw e : ExceptT ε (StateM σ) α) := fun _ h => h

theorem liftM (x : Except ε α) : Keeps P (MonadLiftT.monadLift x : ExceptT ε (StateM σ) α) := fun _ h => h

theorem set {s : σ} (h : P s) : Keeps P (MonadStateOf.set s : ExceptT ε (StateM σ) PUnit) := fun _ _ => h

theorem modify {g : σ → σ} (hg : ∀ s, P s → P (g s)) : Keeps P (modify g : ExceptT ε (StateM σ) PUnit) := hg

/-- Work one after another keeps true what its parts do, each begun with what the part before gives. -/
theorem bind_gives {x : ExceptT ε (StateM σ) α} {f : α → ExceptT ε (StateM σ) β} (hx : Keeps P x)
    (hf : ∀ {s a s'}, P s → Gives x s a s' → Keeps P (f a)) : Keeps P (x >>= f) := by
  intro s h
  have hs := hx s h
  rw [outcome_bind]
  rcases ho : outcome x s with ⟨e | a, s'⟩
  · rw [ho] at hs
    exact hs
  · rw [ho] at hs
    exact hf h ho s' hs

theorem bind {x : ExceptT ε (StateM σ) α} {f : α → ExceptT ε (StateM σ) β} (hx : Keeps P x)
    (hf : ∀ a, Keeps P (f a)) : Keeps P (x >>= f) := hx.bind_gives fun _ _ => hf _

/-- Work that looks at the state sees what is true of it. -/
theorem get_bind {f : σ → ExceptT ε (StateM σ) β} (hf : ∀ s, P s → Keeps P (f s)) : Keeps P (get >>= f) :=
  bind_gives (fun _ h => h) fun h hg => by
    obtain ⟨rfl, -⟩ := gives_get.mp hg
    exact hf _ h

theorem forM {f : α → ExceptT ε (StateM σ) PUnit} (hf : ∀ a, Keeps P (f a)) : ∀ xs : List α, Keeps P (xs.forM f)
  | [] => pure _
  | x :: xs => (hf x).bind fun _ => forM hf xs

/-- What is kept when the work ends well. -/
theorem gives {x : ExceptT ε (StateM σ) α} (hx : Keeps P x) {s s' : σ} {a : α} (h : Gives x s a s') (hs : P s) :
    P s' := by
  have hs' := hx s hs
  rwa [h] at hs'

end Keeps

/-! ## At the desk -/

namespace Editing

variable {α : Type} {k k' : Desk}

theorem outcome_inNote (number : Int) (x : Editing α) (k : Desk) :
    outcome (inNote number x) k = ((outcome x k).1.mapError (·.inNote number), (outcome x k).2) := outcome_adapt _ x k

/-- Placing failures in a note changes no success. -/
@[simp] theorem gives_inNote {number : Int} {x : Editing α} {a : α} :
    Gives (inNote number x) k a k' ↔ Gives x k a k' := by
  unfold Gives
  rw [outcome_inNote]
  rcases outcome x k with ⟨_ | _, k₁⟩ <;> simp [Except.mapError]

/-- A failure that was placed in a note. -/
theorem outcome_inNote_error {number : Int} {x : Editing α} {e : Failure}
    (h : (outcome (inNote number x) k).1 = .error e) : ∃ e', (outcome x k).1 = .error e' ∧ e'.inNote number = e := by
  rw [outcome_inNote] at h
  cases hx : (outcome x k).1 with
  | error e' =>
    rw [hx] at h
    cases h
    exact ⟨e', rfl, rfl⟩
  | ok a =>
    rw [hx] at h
    cases h

/-- Work whose failures are placed in a note. -/
theorem failsFor_inNote {P Q : Failure → Prop} {x : Editing α} (hx : FailsFor P x) {number : Int}
    (h : ∀ e, P e → Q (e.inNote number)) : FailsFor Q (inNote number x) := by
  intro k e he
  obtain ⟨e', he', rfl⟩ := outcome_inNote_error he
  exact h e' (hx k e' he')

/-- An event goes to the end of the log. -/
@[simp] theorem gives_note {e : Event} {u : Unit} : Gives (note e) k u k' ↔ { k with log := k.log ++ [e] } = k' :=
  gives_modify

end Editing

/-- **A citation is its form with the cleaned pincite**, and the parenthetical. -/
theorem Source.gives_cite {s : Source} {form : Form} {pincite parenthetical : Option Text} {k k' : Desk} {text : Text} :
    Gives (s.cite form pincite parenthetical) k text k' ↔ ∃ pin spans, Pincite.clean s.id pincite = .ok pin ∧
      Gives (s.inForm form pin) k spans k' ∧ text = Styled.markdown (spans ++ parenthesis parenthetical) := by
  simp only [cite, citeStyled, gives_map, gives_bind, gives_liftM, gives_pure]
  constructor
  · rintro ⟨_, ⟨pin, _, ⟨hpin, rfl⟩, spans, _, hspans, rfl, rfl⟩, rfl⟩
    exact ⟨pin, spans, hpin, hspans, rfl⟩
  · rintro ⟨pin, spans, hpin, hspans, rfl⟩
    exact ⟨_, ⟨pin, k, ⟨hpin, rfl⟩, spans, k', hspans, rfl, rfl⟩, rfl⟩

end Footcite
