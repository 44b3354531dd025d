import Footcite.Ledger
import Footcite.Proofs.Table

/-!
# What a choice does to the ledger

All that the ledger can do when the form of a citation is chosen, one case for each way (`Ledger.Choice`,
`Ledger.choice_of_choose`). A choice sets flags and begins records, and touches no more: the citation just made stays
(`Ledger.Choice.last`), and every record that was there stays as it was but for its flag (`Ledger.Choice.records`). It
fails only if a record is missing (`Ledger.choose_error`).
-/

namespace Footcite

namespace Record

/-- A record with its flag set. -/
def flagged (r : Record) : Record := { r with hereinafter := true }

/-- A record without its flag. -/
def unflagged (r : Record) : Record := { r with hereinafter := false }

@[simp] theorem unflagged_flagged (r : Record) : r.flagged.unflagged = r.unflagged := rfl

/-- A record with one citation more. -/
def entered (r : Record) (position : Int) : Record := { r with recent := Ledger.keepRecent r.recent position }

@[simp] theorem unflagged_entered (r : Record) (position : Int) :
    (r.entered position).unflagged = r.unflagged.entered position := rfl

end Record

namespace Ledger

/-- The sources that stand under a first author. -/
def byAuthor (l : Ledger) (key : Text) : List Text := (l.authors.get? key).getD []

/-- The sources under a first author once another has been entered. -/
def withSource (ids : List Text) (id : Text) : List Text := if ids.contains id then ids else ids ++ [id]

/-- Entering a citation changes the record of its source only, if there is one. -/
theorem get?_enterCitation (l : Ledger) (id : Text) (position : Int) (inString : Bool) (pincite : Option Text)
    (i : Text) : (l.enterCitation id position inString pincite).records.get? i =
      if id = i then (l.records.get? i).map (·.entered position) else l.records.get? i :=
  Table.get?_update l.records id i _

/-! ## Flags and authors -/

/-- Flagging sources sets the flags of their records and changes nothing else. -/
theorem flagAll_ok : ∀ {ids : List Text} {records records' : Table Record},
    flagAll ids records = (.ok (), records') →
      ∀ id, records'.get? id = if id ∈ ids then (records.get? id).map Record.flagged else records.get? id
  | [], _, _, h, id => by
    simp only [flagAll, Prod.mk.injEq] at h
    simp [h.2]
  | i :: ids, records, _, h, id => by
    unfold flagAll at h
    split at h
    · next r hr =>
      rw [flagAll_ok h id, Table.get?_set]
      by_cases hi : i = id
      · subst hi
        simp [hr, Record.flagged]
      · simp [hi, Ne.symm hi]
    · simp at h

theorem enterAuthor_eq (l : Ledger) (key id : Text) : l.enterAuthor key id =
    if 1 < (withSource (l.byAuthor key) id).length then
      ((flagAll (withSource (l.byAuthor key) id) l.records).1,
        { l with
          authors := l.authors.set key (withSource (l.byAuthor key) id)
          records := (flagAll (withSource (l.byAuthor key) id) l.records).2 })
    else (.ok (), { l with authors := l.authors.set key (withSource (l.byAuthor key) id) }) := rfl

/-- Entering a source under its first author flags the sources there, if it is not the only one. -/
theorem enterAuthor_ok {l l' : Ledger} {key id : Text} (h : l.enterAuthor key id = (.ok (), l')) :
    l'.last = l.last ∧ l'.authors = l.authors.set key (withSource (l.byAuthor key) id) ∧
      ∀ i, l'.records.get? i =
        if 1 < (withSource (l.byAuthor key) id).length ∧ i ∈ withSource (l.byAuthor key) id then
          (l.records.get? i).map Record.flagged
        else l.records.get? i := by
  rw [enterAuthor_eq] at h
  split at h
  · next hlen =>
    simp only [Prod.mk.injEq] at h
    obtain ⟨hf, rfl⟩ := h
    refine ⟨rfl, rfl, fun i => ?_⟩
    simp only [hlen, true_and]
    exact flagAll_ok (Prod.ext hf rfl) i
  · next hlen =>
    simp only [Prod.mk.injEq, true_and] at h
    subst h
    exact ⟨rfl, rfl, fun i => by simp [hlen]⟩

/-! ## The cases of a choice -/

/-- **The ways in which a form is chosen**, each with the form and the ledger after it. -/
inductive Choice (l : Ledger) (s : Source) (position number : Int) (pincite : Option Text) (opens : Bool) :
    Form → Ledger → Prop
  /-- The source is the one just cited. -/
  | again : l.repeats s.id position = true → Choice l s position number pincite opens
      (.id opens (l.repeatsPincite pincite)) l
  /-- A case that has not been cited. -/
  | firstCase : l.repeats s.id position = false → l.records.get? s.id = none → s.isCase = true →
      Choice l s position number pincite opens .longCase (l.begin s.id position number)
  /-- Another source that has not been cited and has no author. -/
  | firstUnauthored {flag : Bool} : l.repeats s.id position = false → l.records.get? s.id = none → s.isCase = false →
      nonEmpty s.authorKey = none → Choice l s position number pincite opens (.full flag) (l.begin s.id position number)
  /-- Another source that has not been cited, by an author. -/
  | first {flag : Bool} {key : Text} {l' : Ledger} : l.repeats s.id position = false → l.records.get? s.id = none →
      s.isCase = false → nonEmpty s.authorKey = some key →
      (l.begin s.id position number).enterAuthor key s.id = (.ok (), l') →
      Choice l s position number pincite opens (.full flag) l'
  /-- A case that has been cited. -/
  | laterCase {r : Record} : l.repeats s.id position = false → l.records.get? s.id = some r → s.isCase = true →
      Choice l s position number pincite opens (if l.recentlyCited s.id position then .shortCase else .longCase) l
  /-- Another source that has been cited. -/
  | later {r : Record} : l.repeats s.id position = false → l.records.get? s.id = some r → s.isCase = false →
      Choice l s position number pincite opens (.short r.firstNumber r.hereinafter) l

variable {l l' : Ledger} {s : Source} {position number : Int} {pincite : Option Text} {opens : Bool} {form : Form}

/-- Every choice is made in one of these ways. -/
theorem choice_of_choose (h : l.choose s position number pincite opens = .ok (form, l')) :
    Choice l s position number pincite opens form l' := by
  unfold choose at h
  by_cases hrep : l.repeats s.id position = true
  · rw [if_pos hrep] at h
    cases h
    exact .again hrep
  · rw [if_neg hrep] at h
    have hrep : l.repeats s.id position = false := by simpa using hrep
    cases hr : l.records.get? s.id with
    | none =>
      rw [hr] at h
      by_cases hc : s.isCase = true
      · simp only [if_pos hc] at h
        cases h
        exact .firstCase hrep hr hc
      · simp only [if_neg hc] at h
        have hc : s.isCase = false := by simpa using hc
        unfold beginFull at h
        split at h
        · next hk =>
          cases h
          exact .firstUnauthored hrep hr hc hk
        · next key hk =>
          simp only at h
          split at h
          · next l₁ he =>
            cases h
            exact .first hrep hr hc hk he
          · cases h
    | some r =>
      rw [hr] at h
      by_cases hc : s.isCase = true
      · simp only [if_pos hc] at h
        cases h
        exact .laterCase hrep hr hc
      · simp only [if_neg hc] at h
        cases h
        exact .later hrep hr (by simpa using hc)

namespace Choice

/-- The citation just made stays. -/
theorem last (h : Choice l s position number pincite opens form l') : l'.last = l.last := by
  cases h with
  | again => rfl
  | firstCase => rfl
  | firstUnauthored => rfl
  | first _ _ _ _ he => exact (enterAuthor_ok he).1
  | laterCase => rfl
  | later => rfl

/-- Only what is no case is cited by pointing back. -/
theorem isCase_of_short (h : Choice l s position number pincite opens form l') :
    ∀ n flag, form = .short n flag → s.isCase = false := by
  intro n flag hform
  cases h with
  | later _ _ hcase => exact hcase
  | laterCase => split at hform <;> cases hform
  | again | firstCase | firstUnauthored | first => cases hform

/-- After a choice the source has a record, and the others have those they had; flags aside, a record stays as it was.
-/
theorem records (h : Choice l s position number pincite opens form l')
    (hrep : l.repeats s.id position = true → l.records.get? s.id ≠ none) (id : Text) :
    (l'.records.get? id).map Record.unflagged =
      if s.id = id then
        some (((l.records.get? id).map Record.unflagged).getD { firstPosition := position, firstNumber := number })
      else (l.records.get? id).map Record.unflagged := by
  have unchanged (hs : l.records.get? s.id ≠ none) : (l.records.get? id).map Record.unflagged =
      if s.id = id then
        some (((l.records.get? id).map Record.unflagged).getD { firstPosition := position, firstNumber := number })
      else (l.records.get? id).map Record.unflagged := by
    split
    · next hi =>
      rw [hi] at hs
      obtain ⟨r, hr⟩ := Option.ne_none_iff_exists'.mp hs
      simp [hr]
    · rfl
  have begun (hs : l.records.get? s.id = none) : ((l.begin s.id position number).records.get? id).map Record.unflagged =
      if s.id = id then
        some (((l.records.get? id).map Record.unflagged).getD { firstPosition := position, firstNumber := number })
      else (l.records.get? id).map Record.unflagged := by
    simp only [begin, Table.get?_set]
    split
    · next hi =>
      rw [hi] at hs
      simp [hs, Record.unflagged]
    · rfl
  cases h with
  | again hr => exact unchanged (hrep hr)
  | firstCase _ hr => exact begun hr
  | firstUnauthored _ hr => exact begun hr
  | first _ hr _ _ he =>
    rw [← begun hr, (enterAuthor_ok he).2.2 id]
    split
    · cases (l.begin s.id position number).records.get? id <;> rfl
    · rfl
  | laterCase _ hr => exact unchanged (by simp [hr])
  | later _ hr => exact unchanged (by simp [hr])

end Choice

/-! ## Choices that fail -/

/-- Flags are set unless one of the sources has no record. -/
theorem flagAll_error {e : Failure} : ∀ {ids : List Text} {records records' : Table Record},
    flagAll ids records = (.error e, records') → ∃ id ∈ ids, records.get? id = none ∧ e = .noRecord id
  | [], _, _, h => by cases h
  | i :: ids, records, _, h => by
    unfold flagAll at h
    split at h
    · obtain ⟨id, hmem, hnone, rfl⟩ := flagAll_error h
      rw [Table.get?_set] at hnone
      split at hnone
      · cases hnone
      · exact ⟨id, List.mem_cons_of_mem _ hmem, hnone, rfl⟩
    · next hnone =>
      cases h
      exact ⟨i, List.mem_cons_self, hnone, rfl⟩

/-- **A choice fails** only when a source that stands under an author has no record. -/
theorem choose_error {e : Failure} (h : l.choose s position number pincite opens = .error e) :
    ∃ id, e = .noRecord id ∧ l.records.get? id = none ∧ ∃ key, id ∈ l.byAuthor key := by
  unfold choose at h
  split at h
  · cases h
  split at h
  · split at h
    · cases h
    · unfold beginFull at h
      simp only at h
      split at h
      · cases h
      · next key _ =>
        split at h
        · cases h
        · next he =>
          cases h
          rw [enterAuthor_eq] at he
          split at he
          · simp only [Prod.mk.injEq] at he
            obtain ⟨id, hmem, hnone, rfl⟩ := flagAll_error (Prod.ext he.1 rfl)
            rw [begin, Table.get?_set] at hnone
            split at hnone
            · cases hnone
            · next hne =>
              refine ⟨id, rfl, hnone, key, ?_⟩
              unfold withSource at hmem
              split at hmem
              · exact hmem
              · exact (List.mem_append.mp hmem).elim (fun h => h) fun h => absurd (List.mem_singleton.mp h).symm hne
          · cases he
  · split at h <;> cases h

end Ledger

end Footcite
