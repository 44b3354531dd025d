import Footcite.Proofs.Citation.Failures
import Footcite.Proofs.Desk

/-!
# Work under shifted numbers

When the notes of a document are numbered from elsewhere, the same work is done with other numbers. Two pieces of work
are alike under a shift of the numbers (`Editing.Alike`) if at desks with the same tables they end alike: both well,
with results that are related, or both with a failure that differs by the shift of its numbers (`Failure.shifted`). One
of them may also meet a number that is too long to be written, and then nothing is said of the other. Work that is done
in sequence is alike if its parts are (`Editing.Alike.bind`).
-/

namespace Footcite

/-- The failure with the numbers of notes shifted. -/
def Failure.shifted (δ : Int) : Failure → Failure
  | .malformed token fault n => .malformed token fault (n + δ)
  | .unknownSource id n => .unknownSource id (n + δ)
  | .missingField id field n => .missingField id field (n.map (· + δ))
  | .emptyPincite pincite id n => .emptyPincite pincite id (n.map (· + δ))
  | .anchoredTwice ref first n => .anchoredTwice ref (first + δ) (n + δ)
  | .neverAnchored ref n => .neverAnchored ref (n + δ)
  | f => f

/-- The form with the number of the note that it points back to shifted. -/
def Form.shifted (δ : Int) : Form → Form
  | .short n flag => .short (n + δ) flag
  | f => f

variable {δ : Int} {α β α' β' : Type}

/-- Placing a failure in a note, shifted. -/
theorem Failure.shifted_inNote (f : Failure) (number : Int) :
    (f.inNote number).shifted δ = (f.shifted δ).inNote (number + δ) := by
  cases f with
  | missingField id field n => cases n <;> rfl
  | emptyPincite pincite id n => cases n <;> rfl
  | _ => rfl

/-- A reason for which a citation fails names no note that could be shifted. -/
theorem Source.Fault.shifted {s : Source} {f : Failure} (h : s.Fault f) : f.shifted δ = f := by
  cases h <;> rfl

theorem Source.FaultIn.shifted {s : Source} {form : Form} {f : Failure} (h : s.FaultIn form f) : f.shifted δ = f := by
  cases h with
  | source h => exact h.shifted
  | kind => rfl
  | note => rfl

/-! ## Ends -/

/-- **Two ends that differ by a shift of the numbers of notes**, unless a number was too long to be written. -/
inductive EndsAlike (δ : Int) (R : α → β → Prop) : Except Failure α → Except Failure β → Prop
  | ok {a : α} {b : β} : R a b → EndsAlike δ R (.ok a) (.ok b)
  | error (e : Failure) : EndsAlike δ R (.error e) (.error (e.shifted δ))
  | tooLong (y : Except Failure β) : EndsAlike δ R (.error .longNumeral) y
  | tooLongShifted (x : Except Failure α) : EndsAlike δ R x (.error .longNumeral)

namespace EndsAlike

variable {R : α → β → Prop} {S : α' → β' → Prop}

theorem imp {x : Except Failure α} {y : Except Failure β} {R' : α → β → Prop} (h : EndsAlike δ R x y)
    (hr : ∀ a b, R a b → R' a b) : EndsAlike δ R' x y := by
  cases h with
  | ok h => exact .ok (hr _ _ h)
  | error e => exact .error e
  | tooLong y => exact .tooLong y
  | tooLongShifted x => exact .tooLongShifted x

/-- Answers one after another end alike. -/
theorem bind {x : Except Failure α} {y : Except Failure β} {f : α → Except Failure α'} {g : β → Except Failure β'}
    (h : EndsAlike δ R x y) (hf : ∀ a b, R a b → EndsAlike δ S (f a) (g b)) : EndsAlike δ S (x >>= f) (y >>= g) := by
  cases h with
  | ok h => exact hf _ _ h
  | error e => exact .error e
  | tooLong y => exact .tooLong _
  | tooLongShifted x => exact .tooLongShifted _

/-- An answer whose failures name no note. -/
theorem refl {x : Except Failure α} (hx : ∀ e, x = .error e → e.shifted δ = e) : EndsAlike δ Eq x x := by
  cases x with
  | ok a => exact .ok rfl
  | error e =>
    have h : EndsAlike δ (Eq : α → α → Prop) (.error e) (.error (e.shifted δ)) := .error e
    rwa [hx e rfl] at h

/-- What is known of two ends when neither met a number that was too long. -/
theorem cases_of_ne {x : Except Failure α} {y : Except Failure β} (h : EndsAlike δ R x y)
    (hx : x ≠ .error .longNumeral) (hy : y ≠ .error .longNumeral) :
    (∃ a b, x = .ok a ∧ y = .ok b ∧ R a b) ∨ ∃ e, x = .error e ∧ y = .error (e.shifted δ) := by
  cases h with
  | ok h => exact .inl ⟨_, _, rfl, rfl, h⟩
  | error e => exact .inr ⟨e, rfl, rfl⟩
  | tooLong => exact absurd rfl hx
  | tooLongShifted => exact absurd rfl hy

end EndsAlike

/-- Numerals of a number and of the shifted one. -/
theorem Numeral.write_alike (n : Int) :
    EndsAlike δ (fun t u => t = ofInt n ∧ u = ofInt (n + δ)) (write n) (write (n + δ)) := by
  unfold write
  split
  · split
    · exact .ok ⟨rfl, rfl⟩
    · exact .tooLongShifted _
  · exact .tooLong _

/-! ## Work at the desk -/

namespace Editing

/-- What work comes to, and the desk that it leaves when it ends well. -/
def answer (x : Editing α) (k : Desk) : Except Failure (α × Desk) := (outcome x k).1.map fun a => (a, (outcome x k).2)

theorem answer_bind (x : Editing α) (f : α → Editing α') (k : Desk) :
    answer (x >>= f) k = answer x k >>= fun (a, k₁) => answer (f a) k₁ := by
  unfold answer
  rw [outcome_bind]
  rcases outcome x k with ⟨_ | a, k₁⟩ <;> rfl

theorem answer_inNote (number : Int) (x : Editing α) (k : Desk) :
    answer (inNote number x) k = (answer x k).mapError (·.inNote number) := by
  unfold answer
  rw [outcome_inNote]
  rcases outcome x k with ⟨_ | a, k₁⟩ <;> rfl

variable {user bundled : Table Text}

/-- **Work that ends alike at desks with the same tables**, and leaves desks with these tables if it ends well. -/
def Alike (user bundled : Table Text) (δ : Int) (R : α → β → Prop) (x : Editing α) (y : Editing β) : Prop :=
  ∀ k k' : Desk, k.journals.Serves user bundled → k'.journals.Serves user bundled →
    EndsAlike δ (fun a b => R a.1 b.1 ∧ a.2.journals.Serves user bundled ∧ b.2.journals.Serves user bundled)
      (answer x k) (answer y k')

namespace Alike

variable {R : α → β → Prop} {S : α' → β' → Prop} {x : Editing α} {y : Editing β}

/-- How the work ends at two desks. -/
theorem ends (h : Alike user bundled δ R x y) {k k' : Desk} (hk : k.journals.Serves user bundled)
    (hk' : k'.journals.Serves user bundled) : EndsAlike δ R (outcome x k).1 (outcome y k').1 := by
  have hx : (outcome x k).1 = answer x k >>= fun a => .ok a.1 := by
    unfold answer
    rcases outcome x k with ⟨_ | a, k₁⟩ <;> rfl
  have hy : (outcome y k').1 = answer y k' >>= fun b => .ok b.1 := by
    unfold answer
    rcases outcome y k' with ⟨_ | b, k₁⟩ <;> rfl
  rw [hx, hy]
  exact (h k k' hk hk').bind fun a b hr => .ok hr.1

theorem imp {R' : α → β → Prop} (h : Alike user bundled δ R x y) (hr : ∀ a b, R a b → R' a b) :
    Alike user bundled δ R' x y :=
  fun k k' hk hk' => (h k k' hk hk').imp fun a b hab => ⟨hr a.1 b.1 hab.1, hab.2⟩

theorem pure {a : α} {b : β} (h : R a b) : Alike user bundled δ R (Pure.pure a) (Pure.pure b) :=
  fun _ _ hk hk' => .ok ⟨h, hk, hk'⟩

/-- Failures that differ by the shift. -/
theorem throw (e : Failure) : Alike user bundled δ R (MonadExcept.throw e) (MonadExcept.throw (e.shifted δ)) :=
  fun _ _ _ _ => .error e

theorem liftM {x : Except Failure α} {y : Except Failure β} (h : EndsAlike δ R x y) :
    Alike user bundled δ R (MonadLiftT.monadLift x) (MonadLiftT.monadLift y) :=
  fun _ _ hk hk' => h.bind (f := fun a => .ok (a, _)) (g := fun b => .ok (b, _)) fun _ _ hr => .ok ⟨hr, hk, hk'⟩

/-- The desks are not compared. -/
theorem get : Alike user bundled δ (fun _ _ => True) (MonadState.get : Editing Desk) MonadState.get :=
  fun _ _ hk hk' => .ok ⟨trivial, hk, hk'⟩

/-- Events are no matter. -/
theorem note (e e' : Event) : Alike user bundled δ (fun _ _ => True) (Editing.note e) (Editing.note e') :=
  fun _ _ hk hk' => .ok ⟨trivial, hk, hk'⟩

/-- **Work one after another ends alike** if its parts do. -/
theorem bind {f : α → Editing α'} {g : β → Editing β'} (h : Alike user bundled δ R x y)
    (hf : ∀ a b, R a b → Alike user bundled δ S (f a) (g b)) : Alike user bundled δ S (x >>= f) (y >>= g) := by
  intro k k' hk hk'
  rw [answer_bind, answer_bind]
  exact (h k k' hk hk').bind fun a b ⟨hr, hs, hs'⟩ => hf a.1 b.1 hr a.2 b.2 hs hs'

theorem map {f : α → α'} {g : β → β'} (h : Alike user bundled δ R x y) (hf : ∀ a b, R a b → S (f a) (g b)) :
    Alike user bundled δ S (f <$> x) (g <$> y) := by
  rw [← bind_pure_comp, ← bind_pure_comp]
  exact h.bind fun a b hr => .pure (hf a b hr)

/-- Failures placed in a note, and in the shifted one. -/
theorem inNote (h : Alike user bundled δ R x y) (number : Int) :
    Alike user bundled δ R (Editing.inNote number x) (Editing.inNote (number + δ) y) := by
  intro k k' hk hk'
  rw [answer_inNote, answer_inNote]
  have hends := h k k' hk hk'
  generalize answer x k = p at *
  generalize answer y k' = q at *
  cases hends with
  | ok hr => exact .ok hr
  | error e =>
    show EndsAlike δ _ (.error (e.inNote number)) (.error ((e.shifted δ).inNote (number + δ)))
    rw [← Failure.shifted_inNote]
    exact .error _
  | tooLong => exact .tooLong _
  | tooLongShifted => exact .tooLongShifted _

/-- Work on each of several things in turn. -/
theorem mapM {f : α → Editing α'} {g : β → Editing β'} (hf : ∀ a b, R a b → Alike user bundled δ S (f a) (g b)) :
    ∀ {xs : List α} {ys : List β}, List.Forall₂ R xs ys →
      Alike user bundled δ (List.Forall₂ S) (xs.mapM f) (ys.mapM g)
  | _, _, .nil => by
    rw [List.mapM_nil, List.mapM_nil]
    exact .pure .nil
  | _, _, .cons hr hrs => by
    rw [List.mapM_cons, List.mapM_cons]
    exact (hf _ _ hr).bind fun _ _ hs => (mapM hf hrs).bind fun _ _ hss => .pure (.cons hs hss)

/-- Steady work whose failures name no note. -/
theorem of_steady {P : Failure → Prop} {x : Editing α} (hs : Steady user bundled x) (hf : FailsFor P x)
    (hp : ∀ e, P e → e.shifted δ = e) : Alike user bundled δ Eq x x := by
  intro k k' hk hk'
  obtain ⟨r, hr⟩ := hs
  obtain ⟨k₁, ho, hk₁⟩ := hr k hk
  obtain ⟨k₂, ho', hk₂⟩ := hr k' hk'
  have hend : EndsAlike δ Eq r r := .refl fun e he => hp e (hf k e (by rw [ho]; exact he))
  unfold answer
  rw [ho, ho']
  exact hend.bind (f := fun a => .ok (a, k₁)) (g := fun a => .ok (a, k₂)) fun a b h => .ok ⟨h, hk₁, hk₂⟩

end Alike

end Editing

end Footcite
