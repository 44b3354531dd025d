import Footcite.Proofs.Ledger.History
import Mathlib.Data.List.Nodup

/-!
# The sources by each first author

The ledger keeps the sources that have been cited by their first authors, and flags the records of a source when another
one stands under the same author (`Ledger.Grouped`). Every walk keeps the ledger so (`Walk.grouped`), for each choice of
a form does (`Ledger.Grouped.choice`), whichever source came first. So a record is flagged exactly when another recorded
source shares its author (`Ledger.Grouped.flag_iff`).
-/

namespace Footcite

/-- The key of the first author of a source in the library. -/
def Library.authorOf (library : Library) (id : Text) : Option Text :=
  (library.get? id).bind fun s => nonEmpty s.authorKey

/-- A case has no first author. -/
theorem Source.authorKey_of_isCase {s : Source} (h : s.isCase = true) : s.authorKey = none := by
  unfold authorKey
  rw [if_pos h]

theorem Library.authorOf_eq_some {library : Library} {id key : Text} : library.authorOf id = some key ↔
    ∃ s, library.get? id = some s ∧ s.isCase = false ∧ s.authorKey = some key ∧ key ≠ [] := by
  unfold authorOf
  rw [Option.bind_eq_some_iff]
  constructor
  · rintro ⟨s, hs, hk⟩
    obtain ⟨hk, hne⟩ := nonEmpty_eq_some.mp hk
    refine ⟨s, hs, ?_, hk, hne⟩
    by_contra hc
    rw [Source.authorKey_of_isCase (by simpa using hc)] at hk
    cases hk
  · rintro ⟨s, hs, _, hk, hne⟩
    exact ⟨s, hs, nonEmpty_eq_some.mpr ⟨hk, hne⟩⟩

namespace Ledger

variable {library : Library} {l l' : Ledger} {id key : Text} {position number : Int}

/-! ## The invariant -/

/-- **The sources stand under their first authors**: each recorded one once, and flagged when it is not the only one. -/
structure Grouped (library : Library) (l : Ledger) : Prop where
  nodup : ∀ key, (l.byAuthor key).Nodup
  members : ∀ key id, id ∈ l.byAuthor key ↔ l.records.get? id ≠ none ∧ library.authorOf id = some key
  flags : ∀ id r, l.records.get? id = some r →
    (r.hereinafter = true ↔ ∃ key, library.authorOf id = some key ∧ 1 < (l.byAuthor key).length)

/-! ## The first citation of a source -/

/-- The answers after a source has got its first record. -/
theorem get?_begin (l : Ledger) (id : Text) (position number : Int) (i : Text) :
    (l.begin id position number).records.get? i =
      if id = i then some { firstPosition := position, firstNumber := number } else l.records.get? i :=
  Table.get?_set l.records id i _

/-- **What the first citation of a source enters** when it has an author: the source stands last under the author, it
has a record, and if it is not alone there, all by the author are flagged. -/
structure Enters (l : Ledger) (key id : Text) (l' : Ledger) : Prop where
  authors : ∀ key', l'.byAuthor key' = if key = key' then l.byAuthor key ++ [id] else l.byAuthor key'
  known : ∀ i, l'.records.get? i ≠ none ↔ i = id ∨ l.records.get? i ≠ none
  flags : ∀ i r, l'.records.get? i = some r → (r.hereinafter = true ↔
    (1 < (l.byAuthor key ++ [id]).length ∧ i ∈ l.byAuthor key ++ [id]) ∨
      ∃ r', l.records.get? i = some r' ∧ r'.hereinafter = true)

theorem enters_of_enterAuthor (hn : l.records.get? id = none) (hnew : id ∉ l.byAuthor key)
    (he : (l.begin id position number).enterAuthor key id = (.ok (), l')) : l.Enters key id l' := by
  obtain ⟨_, hset, hrec⟩ := enterAuthor_ok he
  have hws : withSource ((l.begin id position number).byAuthor key) id = l.byAuthor key ++ [id] := by
    show withSource (l.byAuthor key) id = _
    unfold withSource
    rw [if_neg (by simpa using hnew)]
  rw [hws] at hset hrec
  refine ⟨fun key' => ?_, fun i => ?_, fun i r hr => ?_⟩
  · unfold byAuthor
    rw [hset, Table.get?_set]
    split <;> rfl
  · rw [hrec, get?_begin]
    by_cases hi : id = i
    · simp only [if_pos hi]
      split <;> simp [hi]
    · simp only [if_neg hi]
      split <;> simp [Ne.symm hi]
  · rw [hrec] at hr
    by_cases hc : 1 < (l.byAuthor key ++ [id]).length ∧ i ∈ l.byAuthor key ++ [id]
    · rw [if_pos hc] at hr
      obtain ⟨r', _, rfl⟩ := Option.map_eq_some_iff.mp hr
      exact ⟨fun _ => .inl hc, fun _ => rfl⟩
    · rw [if_neg hc, get?_begin] at hr
      by_cases hi : id = i
      · subst hi
        rw [if_pos rfl] at hr
        cases hr
        simp only [Bool.false_eq_true, false_iff]
        rintro (hc' | ⟨r', hr', _⟩)
        · exact hc hc'
        · simp [hn] at hr'
      · rw [if_neg hi] at hr
        constructor
        · exact fun hf => .inr ⟨r, hr, hf⟩
        · rintro (hc' | ⟨r', hr', hf⟩)
          · exact absurd hc' hc
          · rw [hr, Option.some.injEq] at hr'
            exact hr' ▸ hf

/-! ## What keeps the invariant -/

namespace Grouped

theorem empty : Grouped library {} := by
  refine ⟨fun _ => .nil, fun key id => ?_, fun id r hr => ?_⟩
  · simp [byAuthor]
  · simp at hr

/-- A source without an author may get a record. -/
theorem begin (h : l.Grouped library) (hn : l.records.get? id = none) (ha : library.authorOf id = none) :
    (l.begin id position number).Grouped library := by
  refine ⟨h.nodup, fun key i => ?_, fun i r hr => ?_⟩
  · show i ∈ l.byAuthor key ↔ _
    rw [h.members, get?_begin]
    by_cases hi : id = i
    · subst hi
      simp [hn, ha]
    · rw [if_neg hi]
  · rw [get?_begin] at hr
    by_cases hi : id = i
    · subst hi
      rw [if_pos rfl] at hr
      cases hr
      simp [ha]
    · rw [if_neg hi] at hr
      exact h.flags i r hr

/-- A source that is not recorded does not stand under an author. -/
theorem not_mem (h : l.Grouped library) (hn : l.records.get? id = none) : id ∉ l.byAuthor key := by
  rw [h.members]
  exact fun hm => hm.1 hn

/-- A source may be entered under its author. -/
theorem enters (h : l.Grouped library) (hn : l.records.get? id = none) (ha : library.authorOf id = some key)
    (he : l.Enters key id l') : l'.Grouped library := by
  -- Who stands under the author now.
  have hmem (i : Text) : i ∈ l.byAuthor key ++ [id] ↔ l'.records.get? i ≠ none ∧ library.authorOf i = some key := by
    rw [List.mem_append, List.mem_singleton, h.members, he.known]
    constructor
    · rintro (⟨hr, hk⟩ | rfl)
      · exact ⟨.inr hr, hk⟩
      · exact ⟨.inl rfl, ha⟩
    · rintro ⟨rfl | hr, hk⟩
      · exact .inr rfl
      · exact .inl ⟨hr, hk⟩
  refine ⟨fun key' => ?_, fun key' i => ?_, fun i r hr => ?_⟩
  · rw [he.authors]
    split
    · rw [← List.concat_eq_append]
      exact (h.nodup key).concat (h.not_mem hn)
    · exact h.nodup key'
  · rw [he.authors]
    split
    · next hk =>
      subst hk
      exact hmem i
    · next hk =>
      rw [h.members, he.known]
      constructor
      · exact fun ⟨hr, hi⟩ => ⟨.inr hr, hi⟩
      · rintro ⟨rfl | hr, hi⟩
        · rw [ha, Option.some.injEq] at hi
          exact absurd hi hk
        · exact ⟨hr, hi⟩
  · rw [he.flags i r hr]
    constructor
    · rintro (⟨hlen, hi⟩ | ⟨r', hr', hf⟩)
      · exact ⟨key, ((hmem i).mp hi).2, by rwa [he.authors, if_pos rfl]⟩
      · obtain ⟨key', hk, hlen⟩ := (h.flags i r' hr').mp hf
        refine ⟨key', hk, ?_⟩
        rw [he.authors]
        split
        · next hkk =>
          subst hkk
          rw [List.length_append]
          omega
        · exact hlen
    · rintro ⟨key', hk, hlen⟩
      rw [he.authors] at hlen
      split at hlen
      · next hkk =>
        subst hkk
        exact .inl ⟨hlen, (hmem i).mpr ⟨by simp [hr], hk⟩⟩
      · next hkk =>
        rcases (he.known i).mp (by simp [hr]) with rfl | hr'
        · rw [ha, Option.some.injEq] at hk
          exact absurd hk hkk
        · obtain ⟨r', hr'⟩ := Option.ne_none_iff_exists'.mp hr'
          exact .inr ⟨r', hr', (h.flags i r' hr').mpr ⟨key', hk, hlen⟩⟩

/-- **Every choice keeps the sources under their authors.** -/
theorem choice {s : Source} {pincite : Option Text} {opens : Bool} {form : Form} (h : l.Grouped library)
    (hs : library.get? s.id = some s) (hc : l.Choice s position number pincite opens form l') : l'.Grouped library := by
  have ha : library.authorOf s.id = nonEmpty s.authorKey := by
    unfold Library.authorOf
    rw [hs, Option.bind_some]
  cases hc with
  | again => exact h
  | firstCase _ hn hcase =>
    refine h.begin hn ?_
    rw [ha, Source.authorKey_of_isCase hcase]
    rfl
  | firstUnauthored _ hn _ hk => exact h.begin hn (ha.trans hk)
  | first _ hn _ hk he => exact h.enters hn (ha.trans hk) (enters_of_enterAuthor hn (h.not_mem hn) he)
  | laterCase => exact h
  | later => exact h

/-- Entering a citation changes neither authors nor flags. -/
theorem enterCitation (h : l.Grouped library) (id : Text) (position : Int) (inString : Bool) (pincite : Option Text) :
    (l.enterCitation id position inString pincite).Grouped library := by
  refine ⟨h.nodup, fun key i => ?_, fun i r hr => ?_⟩
  · show i ∈ l.byAuthor key ↔ _
    rw [h.members, get?_enterCitation]
    split <;> simp
  · rw [get?_enterCitation] at hr
    split at hr
    · obtain ⟨r', hr', rfl⟩ := Option.map_eq_some_iff.mp hr
      exact h.flags i r' hr'
    · exact h.flags i r hr

/-- No choice fails for a record that is missing. -/
theorem choose_ne_error (h : l.Grouped library) {s : Source} {pincite : Option Text} {opens : Bool} (e : Failure) :
    l.choose s position number pincite opens ≠ .error e := by
  intro he
  obtain ⟨id, -, hnone, key, hmem⟩ := choose_error he
  exact ((h.members key id).mp hmem).1 hnone

/-- **A record is flagged exactly when another recorded source has the same author.** -/
theorem flag_iff (h : l.Grouped library) {r : Record} (hr : l.records.get? id = some r) : r.hereinafter = true ↔
    ∃ i key, i ≠ id ∧ l.records.get? i ≠ none ∧ library.authorOf i = some key ∧ library.authorOf id = some key := by
  rw [h.flags id r hr]
  constructor
  · rintro ⟨key, hk, hlen⟩
    have hne : l.byAuthor key ≠ [id] := by
      intro he
      simp [he] at hlen
    rcases ((h.nodup key).ne_singleton_iff id).mp hne with he | ⟨i, hi, hne⟩
    · simp [he] at hlen
    · exact ⟨i, key, hne, ((h.members key i).mp hi).1, ((h.members key i).mp hi).2, hk⟩
  · rintro ⟨i, key, hne, hi, hik, hk⟩
    refine ⟨key, hk, ?_⟩
    have hi := (h.members key i).mpr ⟨hi, hik⟩
    have hid := (h.members key id).mpr ⟨by simp [hr], hk⟩
    by_contra hlen
    have hone : (l.byAuthor key).length = 1 := by
      have := List.length_pos_of_mem hi
      omega
    obtain ⟨j, hj⟩ := List.length_eq_one_iff.mp hone
    rw [hj, List.mem_singleton] at hi hid
    exact hne (hi.trans hid.symm)

end Grouped

end Ledger

/-- **Every walk keeps the sources under their authors.** -/
theorem Walk.grouped {library : Library} (hl : library.Keyed) {l l' : Ledger} {k k' : Desk} {os : List Occurrence}
    {ds : List Draft} (hw : Walk library l k os ds l' k') (h : l.Grouped library) : l'.Grouped library := by
  induction hw with
  | done => exact h
  | cite hc _ ih =>
    obtain ⟨opens, l₁, hchoose, rfl⟩ := hc.chosen
    have hs := hc.source
    rw [← hl _ _ hs] at hs
    exact ih ((h.choice hs (Ledger.choice_of_choose hchoose)).enterCitation _ _ _ _)
  | interrupt _ ih => exact ih ⟨h.nodup, h.members, h.flags⟩

end Footcite
