import Footcite.Csl.Library
import Footcite.Proofs.Table
import Footcite.Proofs.Text.Blanks
import Footcite.Proofs.Text.Digits

/-!
# Sources from items

What a library has of its items. A member that is read as a text is no blank one (`Csl.blank_of_text?`). A source has
the id and the title of its item, and the fields of a supported kind (`Csl.source?_eq_some`). An item with an id is
refused exactly when a number in its date cannot be read (`Csl.source?_error_iff`). A library holds sources of its items
only (`Csl.addItems_mem`), and it is loaded unless there is such an item in it or an id is taken (`Csl.addItems_fails`,
`Csl.library_fails`).
-/

namespace Footcite

/-! ## Texts that are not blank -/

/-- A text with a character other than a blank is not blank. -/
theorem Text.blank_of_mem {t : Text} {c : Char} (h : c ∈ t) (hc : isBlank c = false) : t.blank = false := by
  by_contra hblank
  rw [Bool.not_eq_false, Text.blank, List.all_eq_true] at hblank
  rw [hblank c h] at hc
  cases hc

theorem Text.blank_append_right {t : Text} (u : Text) (h : t.blank = false) : (u ++ t).blank = false := by
  rw [Text.blank, List.all_append, ← Text.blank, ← Text.blank, h, Bool.and_false]

/-- What is left by trimming is not blank. -/
theorem Text.blank_of_trimmed? {t s : Text} (h : t.trimmed? = some s) : s.blank = false := by
  have hs := Text.trimmed?_eq_some h
  by_contra hblank
  rw [Bool.not_eq_false, ← Text.withoutBlanks_eq_nil, hs, Text.withoutBlanks_trim, Text.withoutBlanks_eq_nil] at hblank
  rw [Text.trimmed?_eq_none.mpr hblank] at h
  cases h

/-- A digit is no blank. -/
theorem isBlank_of_isDigit {c : Char} (h : c.isDigit = true) : isBlank c = false := by
  simp only [Char.isDigit, Bool.and_eq_true, decide_eq_true_eq] at h
  have hlow : 48 ≤ c.toNat := h.1
  have hhigh : c.toNat ≤ 57 := h.2
  have hdigits : ∀ n < 58, 48 ≤ n → blankRanges.holds n = false := by decide
  exact hdigits c.toNat (by omega) hlow

theorem Numeral.blank_ofNat (n : Nat) : (ofNat n).blank = false := by
  have hne : ofNat n ≠ [] := Nat.toDigits_ne_nil
  obtain ⟨c, hc⟩ := List.exists_mem_of_ne_nil _ hne
  exact Text.blank_of_mem hc (isBlank_of_isDigit (Nat.isDigit_of_mem_toDigits (by decide) (by decide) hc))

theorem Numeral.blank_ofInt : ∀ n : Int, (ofInt n).blank = false
  | .ofNat n => blank_ofNat n
  | .negSucc _ => Text.blank_of_mem (c := '-') (by simp [ofInt]) (by decide)

/-- A number of double precision is written with a period, an exponent or a name. -/
theorem Binary64.blank_write (x : Binary64) : (x.write Json.floatFormat).blank = false := by
  cases x with
  | nan => decide
  | infinite negative => cases negative <;> decide
  | finite negative m e =>
    simp only [write]
    by_cases hm : m = 0
    · rw [if_pos hm]
      exact Text.blank_of_mem (c := '.') (by simp) (by decide)
    · rw [if_neg hm]
      refine Text.blank_append_right _ ?_
      split
      · refine Text.blank_of_mem (c := '.') ?_ (by decide)
        unfold positional
        split <;> simp
      · exact Text.blank_of_mem (c := 'e') (by simp [exponential]) (by decide)

namespace Csl

/-! ## Members as texts -/

/-- A value is printed blank only if it is a blank string. -/
theorem blank_plain {v : Json} (h : ∀ t, v = .string t → t.blank = false) : v.plain.blank = false := by
  cases v with
  | null => decide
  | bool b => cases b <;> decide
  | int n => exact Numeral.blank_ofInt n
  | float x => exact x.blank_write
  | string t => exact h t rfl
  | array vs => exact Text.blank_of_mem (c := '[') (by simp [Json.plain, Json.inner]) (by decide)
  | object ms => exact Text.blank_of_mem (c := '\x7b') (by simp [Json.plain, Json.inner]) (by decide)

theorem blank_of_text? {v : Json} {t : Text} (h : text? v = some t) : t.blank = false := by
  unfold text? at h
  split at h
  · cases h
  · exact Text.blank_of_trimmed? h

theorem blank_of_firstPage? {v : Json} {t : Text} (h : firstPage? v = some t) : t.blank = false := by
  obtain ⟨_, -, ht⟩ := Option.bind_eq_some_iff.mp h
  exact Text.blank_of_trimmed? ht

/-- A string is read trimmed. -/
theorem text?_string (t : Text) : text? (.string t) = t.trimmed? := rfl

/-! ## Sources -/

/-- **What a source has of its item.** -/
theorem source?_eq_some {item : Item} {s : Source} (h : source? item = .ok (some s)) :
    ∃ kind year, item.text? "id" = some s.id ∧ (item.text? "type").bind kinds.get? = some kind ∧
      s.title = item.text? "title" ∧ work item year kind = .ok s.work := by
  unfold source? at h
  split at h
  · cases h
  · next id hid =>
    obtain ⟨year, _, h⟩ := Except.bind_ok h
    split at h
    · cases h
    · next kind hkind =>
      obtain ⟨w, hw, h⟩ := Except.bind_ok h
      cases h
      exact ⟨kind, year, hid, hkind, rfl, hw⟩

/-! ## Items that are refused -/

/-- The id of an item. -/
def Item.id? (item : Item) : Option Text := item.text? "id"

/-- **Why an item with an id is refused**: a number in its date cannot be read. -/
inductive Item.Unreadable (item : Item) : Failure → Prop
  /-- The year is infinite. -/
  | year {negative : Bool} {rest : List Json} :
      item.dateParts = .float (.infinite negative) :: rest → item.Unreadable .notFinite
  /-- In the date of an issue, an infinite number comes after whole ones. -/
  | issue {negative : Bool} {before after : List Json} : (item.text? "type").bind kinds.get? = some .issueArticle →
      item.dateParts = before ++ .float (.infinite negative) :: after →
      (∀ v ∈ before, ∃ n, whole v = .ok (some n)) → item.Unreadable .notFinite
  /-- The date in words begins with four digits that are no numeral. -/
  | words : item.dateParts = [] → (item.dateText.take 4).length = 4 → Text.OddDigits (item.dateText.take 4) →
      item.Unreadable .badNumeral

/-- Only an infinite number has no whole part that could be looked for. -/
theorem whole_error_iff {v : Json} {e : Failure} :
    whole v = .error e ↔ e = .notFinite ∧ ∃ negative, v = .float (.infinite negative) := by
  constructor
  · intro h
    unfold whole at h
    split at h <;> cases h
    exact ⟨rfl, _, rfl⟩
  · rintro ⟨rfl, negative, rfl⟩
    rfl

theorem wholes_error_iff {e : Failure} : ∀ {vs : List Json}, wholes vs = .error e ↔ e = .notFinite ∧
    ∃ before negative after, vs = before ++ .float (.infinite negative) :: after ∧
      ∀ v ∈ before, ∃ n, whole v = .ok (some n)
  | [] => by simp [wholes]
  | v :: vs => by
    constructor
    · intro h
      rcases Except.bind_error h with h | ⟨n?, hn, h⟩
      · obtain ⟨rfl, negative, rfl⟩ := whole_error_iff.mp h
        exact ⟨rfl, [], negative, vs, rfl, by simp⟩
      · cases n? with
        | none => cases h
        | some n =>
          rcases Except.bind_error h with h | ⟨_, _, h⟩
          · obtain ⟨rfl, before, negative, after, rfl, hbefore⟩ := wholes_error_iff.mp h
            exact ⟨rfl, v :: before, negative, after, rfl, List.forall_mem_cons.mpr ⟨⟨n, hn⟩, hbefore⟩⟩
          · cases h
    · rintro ⟨rfl, before, negative, after, hvs, hbefore⟩
      cases before with
      | nil =>
        obtain ⟨rfl, -⟩ := List.cons.inj hvs
        rfl
      | cons v' before =>
        obtain ⟨rfl, rfl⟩ := List.cons.inj hvs
        obtain ⟨⟨n, hn⟩, hbefore⟩ := List.forall_mem_cons.mp hbefore
        rw [wholes, hn]
        show (wholes (before ++ _) >>= fun rest => pure (rest.map (n :: ·))) = .error .notFinite
        rw [wholes_error_iff.mpr ⟨rfl, before, negative, after, rfl, hbefore⟩]
        rfl

theorem issueDate_error_iff {item : Item} {e : Failure} :
    item.issueDate = .error e ↔ wholes item.dateParts = .error e := by
  unfold Item.issueDate
  constructor
  · intro h
    rcases Except.bind_error h with h | ⟨ns?, _, h⟩
    · exact h
    · split at h
      · split at h <;> cases h
      · cases h
  · intro h
    rw [h]
    rfl

theorem article_error_iff {item : Item} {consecutive : Bool} {e : Failure} :
    article item consecutive = .error e ↔ consecutive = false ∧ wholes item.dateParts = .error e := by
  rw [← issueDate_error_iff]
  unfold article
  cases consecutive with
  | true => exact ⟨fun h => (by cases h), fun h => (by cases h.1)⟩
  | false =>
    constructor
    · intro h
      rcases Except.bind_error h with h | ⟨_, _, h⟩
      · exact ⟨rfl, h⟩
      · cases h
    · rintro ⟨-, h⟩
      simp only [Bool.false_eq_true, if_false, h]
      rfl

/-- Only the date of an issue can keep an item from being a work. -/
theorem work_error_iff {item : Item} {year : Option Int} {kind : Kind} {e : Failure} :
    work item year kind = .error e ↔ kind = .issueArticle ∧ wholes item.dateParts = .error e := by
  have harticle (consecutive : Bool) : Work.article <$> article item consecutive = .error e ↔
      article item consecutive = .error e := by
    cases article item consecutive <;> simp [Functor.map, Except.map]
  cases kind with
  | article => simp [work, harticle, article_error_iff]
  | issueArticle => simp [work, harticle, article_error_iff]
  | book | chapter | manuscript | case => simp [work]

theorem year_error_iff {item : Item} {e : Failure} : item.year = .error e ↔
    (e = .notFinite ∧ ∃ negative rest, item.dateParts = .float (.infinite negative) :: rest) ∨
      e = .badNumeral ∧ item.dateParts = [] ∧ (item.dateText.take 4).length = 4 ∧
        Text.OddDigits (item.dateText.take 4) := by
  unfold Item.year
  split
  · next first rest hparts =>
    simp [hparts, whole_error_iff]
  · next hparts =>
    have hprefix : (item.dateText.take 4).length ≤ 4 := List.length_take_le _ _
    simp only [hparts, reduceCtorEq, exists_const, and_false, false_or, true_and, Text.oddDigits_iff]
    constructor
    · intro h
      split at h
      · next hfour =>
        split at h
        · cases h
        · next hnone =>
          cases h
          -- All four are digits, so none of them was dropped.
          have hfilter : (item.dateText.take 4).filter isDigitLike = item.dateText.take 4 :=
            List.filter_sublist.eq_of_length_le (by omega)
          rw [hfilter] at hfour hnone
          exact ⟨rfl, hfour, List.ne_nil_of_length_pos (by omega), List.filter_eq_self.mp hfilter, hnone⟩
      · cases h
    · rintro ⟨rfl, hfour, -, hdigits, hnone⟩
      simp only [List.filter_eq_self.mpr hdigits, if_pos hfour, hnone]

/-- **The items that are refused.** -/
theorem source?_error_iff {item : Item} {e : Failure} :
    source? item = .error e ↔ item.id?.isSome = true ∧ item.Unreadable e := by
  unfold source? Item.id?
  cases hid : item.text? "id" with
  | none => exact ⟨fun h => (by cases h), fun h => (by cases h.1)⟩
  | some id =>
    simp only [Option.isSome_some, true_and]
    constructor
    · intro h
      rcases Except.bind_error h with h | ⟨year, _, h⟩
      · rcases year_error_iff.mp h with ⟨rfl, _, _, hparts⟩ | ⟨rfl, hparts, hfour, hodd⟩
        · exact .year hparts
        · exact .words hparts hfour hodd
      · split at h
        · cases h
        · next kind hkind =>
          rcases Except.bind_error h with h | ⟨_, _, h⟩
          · obtain ⟨rfl, hdate⟩ := work_error_iff.mp h
            obtain ⟨rfl, before, _, after, hparts, hbefore⟩ := wholes_error_iff.mp hdate
            exact .issue hkind hparts hbefore
          · cases h
    · intro h
      cases h with
      | year hparts =>
        rw [year_error_iff.mpr (.inl ⟨rfl, _, _, hparts⟩)]
        rfl
      | issue hkind hparts hbefore =>
        have hdate := wholes_error_iff.mpr ⟨rfl, _, _, _, hparts, hbefore⟩
        cases hyear : item.year with
        | error e =>
          rcases year_error_iff.mp hyear with ⟨rfl, -⟩ | ⟨-, hnil, -⟩
          · rfl
          · simp [hnil] at hparts
        | ok year =>
          have hwork : work item year .issueArticle = .error .notFinite := work_error_iff.mpr ⟨rfl, hdate⟩
          simp only [hkind]
          show (work item year .issueArticle >>= _) = _
          rw [hwork]
          rfl
      | words hparts hfour hodd =>
        rw [year_error_iff.mpr (.inr ⟨rfl, hparts, hfour, hodd⟩)]
        rfl

/-! ## Libraries -/

/-- **A library holds sources of its items**, besides those that were in it. -/
theorem addItems_mem {origin : Text} :
    ∀ {items : List Item} {l l' : Library} {log log' : List Event}, Gives (addItems origin l items) log l' log' →
      ∀ id s, l'.get? id = some s → l.get? id = some s ∨ ∃ item ∈ items, source? item = .ok (some s)
  | [], _, _, _, _, h, id, s, hs => by
    rw [addItems, gives_pure] at h
    exact .inl (h.1 ▸ hs)
  | item :: items, l, _, _, _, h, id, s, hs => by
    simp only [addItems, gives_bind, gives_liftM] at h
    obtain ⟨s?, _, ⟨hitem, _⟩, h⟩ := h
    cases s? with
    | none =>
      simp only [gives_bind] at h
      obtain ⟨_, _, _, h⟩ := h
      rcases addItems_mem h id s hs with hs | ⟨item', hmem, hs⟩
      · exact .inl hs
      · exact .inr ⟨item', List.mem_cons_of_mem _ hmem, hs⟩
    | some s₁ =>
      simp only at h
      split at h
      · exact absurd h gives_throw
      · rcases addItems_mem h id s hs with hs | ⟨item', hmem, hs⟩
        · rw [Table.get?_set] at hs
          split at hs
          · cases hs
            exact .inr ⟨item, List.mem_cons_self, hitem⟩
          · exact .inl hs
        · exact .inr ⟨item', List.mem_cons_of_mem _ hmem, hs⟩

/-- **Why items are not added to a library**: one of them is refused, or an id is taken, by a source that was in
the library or by another item. -/
theorem addItems_fails {origin : Text} : ∀ {items : List Item} {l : Library} {log : List Event} {e : Failure},
    (outcome (addItems origin l items) log).1 = .error e →
      (∃ item ∈ items, item.id?.isSome = true ∧ item.Unreadable e) ∨
      ((∃ item ∈ items, ∃ id, item.id? = some id ∧ l.get? id ≠ none) ∨
        ¬items.Pairwise fun item item' => ∀ id, item.id? = some id → item'.id? ≠ some id) ∧
      ∃ id, e = .unloadable origin (.duplicateId id)
  | [], _, _, _, h => by cases h
  | item :: items, l, log, e, h => by
    rw [addItems, outcome_bind, outcome_liftM] at h
    cases hs : source? item with
    | error e' =>
      rw [hs] at h
      cases h
      exact .inl ⟨item, List.mem_cons_self, source?_error_iff.mp hs⟩
    | ok s? =>
      rw [hs] at h
      cases s? with
      | none =>
        have hskipped : (outcome (addItems origin l items) (log ++ [skipEvent item])).1 = .error e := h
        rcases addItems_fails hskipped with ⟨item', hmem, hitem⟩ | ⟨⟨item', hmem, htaken⟩ | hrepeat, he⟩
        · exact .inl ⟨item', List.mem_cons_of_mem _ hmem, hitem⟩
        · exact .inr ⟨.inl ⟨item', List.mem_cons_of_mem _ hmem, htaken⟩, he⟩
        · exact .inr ⟨.inr fun hapart => hrepeat (List.pairwise_cons.mp hapart).2, he⟩
      | some s =>
        obtain ⟨_, _, hid, _⟩ := source?_eq_some hs
        simp only at h
        split at h
        · next htaken =>
          cases h
          exact .inr ⟨.inl ⟨item, List.mem_cons_self, s.id, hid, Option.isSome_iff_ne_none.mp htaken⟩, s.id, rfl⟩
        · rcases addItems_fails h with ⟨item', hmem, hitem⟩ | ⟨⟨item', hmem, id, hid', htaken⟩ | hrepeat, he⟩
          · exact .inl ⟨item', List.mem_cons_of_mem _ hmem, hitem⟩
          · refine .inr ⟨?_, he⟩
            rw [Table.get?_set] at htaken
            split at htaken
            · next hsame =>
              exact .inr fun hapart => (List.pairwise_cons.mp hapart).1 item' hmem s.id hid (hsame ▸ hid')
            · exact .inl ⟨item', List.mem_cons_of_mem _ hmem, id, hid', htaken⟩
          · exact .inr ⟨.inr fun hapart => hrepeat (List.pairwise_cons.mp hapart).2, he⟩

/-- **Items with ids of their own** are not refused for an id that is taken. -/
theorem addItems_error {origin : Text} {items : List Item} {l : Library} {log : List Event} {e : Failure}
    (hapart : items.Pairwise fun item item' => ∀ id, item.id? = some id → item'.id? ≠ some id)
    (hfree : ∀ item ∈ items, ∀ id, item.id? = some id → l.get? id = none)
    (h : (outcome (addItems origin l items) log).1 = .error e) : e = .notFinite ∨ e = .badNumeral := by
  rcases addItems_fails h with ⟨item, -, -, hitem⟩ | ⟨⟨item, hmem, id, hid, htaken⟩ | hrepeat, -⟩
  · cases hitem with
    | year | issue => exact .inl rfl
    | words => exact .inr rfl
  · exact absurd (hfree item hmem id hid) htaken
  · exact absurd hapart hrepeat

/-- **Why a value is no library**: what the error says, or an item in it that cannot be read. -/
theorem library_fails {origin : Text} {v : Json} {log : List Event} {e : Failure}
    (h : (outcome (library origin v) log).1 = .error e) :
    (∃ fault, e = .unloadable origin fault) ∨ ∃ item ∈ items v, item.id?.isSome = true ∧ item.Unreadable e := by
  have hitems (h : (outcome (addItems origin [] (items v) >>= fun l =>
      Logging.note (.parsedLibrary l.length origin) >>= fun _ => pure l) log).1 = .error e) :
      (∃ fault, e = .unloadable origin fault) ∨ ∃ item ∈ items v, item.id?.isSome = true ∧ item.Unreadable e := by
    rcases outcome_bind_error h with h | ⟨_, _, -, h⟩
    · rcases addItems_fails h with hitem | ⟨-, id, rfl⟩
      · exact .inr hitem
      · exact .inl ⟨_, rfl⟩
    · cases h
  cases v with
  | array vs => exact hitems h
  | object ms => exact hitems h
  | null | bool | int | float | string =>
    cases h
    exact .inl ⟨.notALibrary, rfl⟩

end Csl

end Footcite
