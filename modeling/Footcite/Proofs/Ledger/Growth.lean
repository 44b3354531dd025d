import Footcite.Proofs.Ledger.Choice
import Footcite.Proofs.Walk

/-!
# The ledger grows

No record is lost, and no flag that is set is taken back (`Ledger.Grows`): neither by a choice, nor by a citation or a
breaker, and so not by a walk (`Walk.grows`).
-/

namespace Footcite

/-- **The one ledger has grown into the other**: every source with a record still has one, and it is flagged if the
record was. -/
def Ledger.Grows (l l' : Ledger) : Prop := ∀ id r, l.records.get? id = some r →
  ∃ r', l'.records.get? id = some r' ∧ (r.hereinafter = true → r'.hereinafter = true)

namespace Ledger

variable {l l' l₁ : Ledger}

theorem Grows.refl (l : Ledger) : l.Grows l := fun _ r hr => ⟨r, hr, id⟩

theorem Grows.trans (h : l.Grows l₁) (h' : l₁.Grows l') : l.Grows l' := by
  intro id r hr
  obtain ⟨r₁, hr₁, hf₁⟩ := h id r hr
  obtain ⟨r', hr', hf'⟩ := h' id r₁ hr₁
  exact ⟨r', hr', hf' ∘ hf₁⟩

/-- A record for a source that has none takes the place of no other. -/
theorem grows_begin {id : Text} {position number : Int} (h : l.records.get? id = none) :
    l.Grows (l.begin id position number) := by
  intro i r hr
  have hne : id ≠ i := by
    rintro rfl
    rw [h] at hr
    cases hr
  exact ⟨r, by simp only [begin, Table.get?_set, if_neg hne, hr], fun hf => hf⟩

/-- Entering an author sets flags and takes none back. -/
theorem grows_enterAuthor {key id : Text} (h : l.enterAuthor key id = (.ok (), l')) : l.Grows l' := by
  intro i r hr
  rw [(enterAuthor_ok h).2.2 i, hr]
  split
  · exact ⟨r.flagged, rfl, fun _ => rfl⟩
  · exact ⟨r, rfl, fun hf => hf⟩

/-- The ledger grows with a choice. -/
theorem Choice.grows {s : Source} {position number : Int} {pincite : Option Text} {opens : Bool} {form : Form}
    (h : l.Choice s position number pincite opens form l') : l.Grows l' := by
  cases h with
  | again => exact .refl _
  | firstCase _ hr => exact grows_begin hr
  | firstUnauthored _ hr => exact grows_begin hr
  | first _ hr _ _ he => exact (grows_begin hr).trans (grows_enterAuthor he)
  | laterCase => exact .refl _
  | later => exact .refl _

/-- The ledger grows with a citation. -/
theorem grows_enterCitation (l : Ledger) (id : Text) (position : Int) (inString : Bool) (pincite : Option Text) :
    l.Grows (l.enterCitation id position inString pincite) := by
  intro i r hr
  rw [get?_enterCitation, hr]
  split
  · exact ⟨r.entered position, rfl, fun hf => hf⟩
  · exact ⟨r, rfl, fun hf => hf⟩

end Ledger

/-- Citing a mention makes the ledger grow. -/
theorem Cites.grows {library : Library} {l l' : Ledger} {k k' : Desk} {x : Site} {d : Draft}
    (hc : Cites library l k x d l' k') : l.Grows l' := by
  obtain ⟨opens, l₁, hchoose, rfl⟩ := hc.chosen
  exact (Ledger.choice_of_choose hchoose).grows.trans (l₁.grows_enterCitation _ _ _ _)

/-- **The ledger grows with every walk.** -/
theorem Walk.grows {library : Library} {l l' : Ledger} {k k' : Desk} {os : List Occurrence} {ds : List Draft}
    (hw : Walk library l k os ds l' k') : l.Grows l' := by
  induction hw with
  | done l k => exact .refl l
  | cite hc _ ih => exact hc.grows.trans ih
  | interrupt _ ih => exact ih

end Footcite
