import Footcite.Proofs.Ledger.Choice
import Footcite.Proofs.Numbering.Alike

/-!
# The ledger under shifted numbers

A ledger keeps displayed numbers beside positions, and looks at the positions alone: with all numbers in it shifted, it
chooses the shifted form (`Ledger.choose_shifted`) and stays the shifted ledger.
-/

namespace Footcite

/-! ## Tables of changed values -/

namespace Table

variable {α β : Type} {f : α → β}

theorem get?_mapValues (t : Table α) (key : Text) : (t.mapValues f).get? key = (t.get? key).map f := by
  induction t with
  | nil => rfl
  | cons e t ih =>
    obtain ⟨k, v⟩ := e
    show (if k = key then some (f v) else Table.get? (Table.mapValues f t) key) = _
    rw [ih, get?_cons]
    split <;> rfl

theorem set_mapValues (t : Table α) (key : Text) (v : α) :
    (t.mapValues f).set key (f v) = (t.set key v).mapValues f := by
  induction t with
  | nil => rfl
  | cons e t ih =>
    obtain ⟨k, v'⟩ := e
    show (if k = key then (k, f v) :: Table.mapValues f t
      else (k, f v') :: Table.set (Table.mapValues f t) key (f v)) = _
    rw [ih, Table.set]
    split <;> rfl

/-- A change of a value that goes with the change of all values. -/
theorem update_mapValues (t : Table α) (key : Text) (g : α → α) (g' : β → β) (h : ∀ a, g' (f a) = f (g a)) :
    (t.mapValues f).update key g' = (t.update key g).mapValues f := by
  unfold update
  rw [get?_mapValues]
  cases t.get? key with
  | none => rfl
  | some v => exact (congrArg _ (h v)).trans (set_mapValues t key (g v))

end Table

/-! ## Shifted ledgers -/

/-- The record with its number shifted. -/
def Record.shifted (δ : Int) (r : Record) : Record := { r with firstNumber := r.firstNumber + δ }

namespace Ledger

variable {δ : Int}

/-- The ledger with all numbers shifted. -/
def shifted (δ : Int) (l : Ledger) : Ledger := { l with records := l.records.mapValues (Record.shifted δ) }

theorem get?_shifted (l : Ledger) (id : Text) :
    (l.shifted δ).records.get? id = (l.records.get? id).map (Record.shifted δ) := Table.get?_mapValues _ _

theorem begin_shifted (l : Ledger) (id : Text) (position number : Int) :
    (l.shifted δ).begin id position (number + δ) = (l.begin id position number).shifted δ := by
  have hset := Table.set_mapValues (f := Record.shifted δ) l.records id
    { firstPosition := position, firstNumber := number }
  exact congrArg (fun records => { l with records }) hset

/-- Flags are set as they are without the shift. -/
theorem flagAll_mapValues : ∀ (ids : List Text) (records : Table Record),
    flagAll ids (records.mapValues (Record.shifted δ)) =
      ((flagAll ids records).1, (flagAll ids records).2.mapValues (Record.shifted δ))
  | [], _ => rfl
  | id :: ids, records => by
    simp only [flagAll, Table.get?_mapValues]
    cases records.get? id with
    | none => rfl
    | some r =>
      have hset : (records.mapValues (Record.shifted δ)).set id { r.shifted δ with hereinafter := true } =
          (records.set id { r with hereinafter := true }).mapValues (Record.shifted δ) :=
        Table.set_mapValues records id { r with hereinafter := true }
      simp only [Option.map_some]
      rw [hset]
      exact flagAll_mapValues ids _

theorem enterAuthor_shifted (l : Ledger) (key id : Text) :
    (l.shifted δ).enterAuthor key id = ((l.enterAuthor key id).1, (l.enterAuthor key id).2.shifted δ) := by
  rw [enterAuthor_eq, enterAuthor_eq]
  have hbyAuthor : (l.shifted δ).byAuthor key = l.byAuthor key := rfl
  rw [hbyAuthor]
  split
  · simp only [shifted, flagAll_mapValues]
  · rfl

theorem beginFull_shifted (l : Ledger) (s : Source) (position number : Int) :
    (l.shifted δ).beginFull s position (number + δ) =
      (l.beginFull s position number).map fun c => (c.1.shifted δ, c.2.shifted δ) := by
  have hflag (l : Ledger) : ((l.shifted δ).records.get? s.id).map (·.hereinafter) =
      (l.records.get? s.id).map (·.hereinafter) := by
    rw [get?_shifted]
    cases l.records.get? s.id <;> rfl
  unfold beginFull
  rw [begin_shifted]
  cases nonEmpty s.authorKey with
  | none =>
    simp only [hflag]
    rfl
  | some key =>
    simp only [enterAuthor_shifted]
    rcases (l.begin s.id position number).enterAuthor key s.id with ⟨_ | ⟨⟩, l'⟩
    · rfl
    · simp only [hflag]
      rfl

theorem recentlyCited_shifted (l : Ledger) (id : Text) (position : Int) :
    (l.shifted δ).recentlyCited id position = l.recentlyCited id position := by
  unfold recentlyCited
  rw [get?_shifted]
  cases l.records.get? id <;> rfl

/-- **The shifted ledger chooses the shifted form.** -/
theorem choose_shifted (l : Ledger) (s : Source) (position number : Int) (pincite : Option Text) (opens : Bool) :
    (l.shifted δ).choose s position (number + δ) pincite opens =
      (l.choose s position number pincite opens).map fun c => (c.1.shifted δ, c.2.shifted δ) := by
  unfold choose
  have hrepeats : (l.shifted δ).repeats s.id position = l.repeats s.id position := rfl
  rw [hrepeats, get?_shifted, recentlyCited_shifted]
  split
  · rfl
  · cases l.records.get? s.id with
    | none =>
      simp only [Option.map_none]
      split
      · rw [begin_shifted]
        rfl
      · exact beginFull_shifted l s position number
    | some r =>
      simp only [Option.map_some]
      split
      · split <;> rfl
      · rfl

/-- Choices from a ledger and from the shifted one end alike. -/
theorem choose_alike (l : Ledger) (s : Source) (position number : Int) (pincite : Option Text) (opens : Bool) :
    EndsAlike δ (fun c c' => c' = (c.1.shifted δ, c.2.shifted δ) ∧
        l.Choice s position number pincite opens c.1 c.2)
      (l.choose s position number pincite opens) ((l.shifted δ).choose s position (number + δ) pincite opens) := by
  rw [choose_shifted]
  cases h : l.choose s position number pincite opens with
  | ok c => exact .ok ⟨rfl, choice_of_choose h⟩
  | error e =>
    obtain ⟨id, rfl, -⟩ := choose_error h
    exact .error (.noRecord id)

/-- Entering a citation. -/
theorem enterCitation_shifted (l : Ledger) (id : Text) (position : Int) (inString : Bool) (pincite : Option Text) :
    (l.shifted δ).enterCitation id position inString pincite =
      (l.enterCitation id position inString pincite).shifted δ := by
  have hupdate := Table.update_mapValues (f := Record.shifted δ) l.records id
    (fun r => { r with recent := keepRecent r.recent position })
    (fun r => { r with recent := keepRecent r.recent position }) fun _ => rfl
  exact congrArg (fun records =>
    { l with records, last := some { source := some id, position, inString, pincite } }) hupdate

end Ledger

end Footcite
