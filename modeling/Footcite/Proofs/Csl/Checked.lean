import Footcite.Csl.Issue
import Footcite.Proofs.Citation.Required
import Footcite.Proofs.Csl.Items

/-!
# Checked libraries

What it means for a library that a check finds no fatal issue in it (`Csl.check_sound`): it is not refused, and no
citation of its sources fails for a missing field. The latter holds of items whose type is written without blanks around
it, and, where the type requires a page, whose pages begin with one. The check does not see to either: a type in blanks
is taken for one that is not supported, though the item is loaded, and a dash is taken for a page
(`Csl.check_passes_unusable`).
-/

namespace Footcite.Csl

/-! ## Items that pass -/

/-- What an item is like with which nothing fatal is wrong. -/
structure Item.Passable (item : Item) : Prop where
  type : ∃ type, item.member "type" = .string type
  fields : ∀ type, item.member "type" = .string type → (kinds.get? type).isSome = true →
    ∀ f ∈ (requiredFields.get? type).getD [], vacant (item.member f) = false

/-- An id that is read as a string. -/
theorem Item.id?_of_string {item : Item} {t : Text} (h : item.member "id" = .string t) : item.id? = t.trimmed? := by
  rw [Item.id?, Item.text?, h, text?_string]

/-- An id that is not taken. -/
theorem get?_of_checkId {path id : Text} {seen : Table Nat} (h : ∀ i ∈ checkId path id seen, i.fatal = false) :
    seen.get? id = none := by
  cases hseen : seen.get? id with
  | none => rfl
  | some first =>
    unfold checkId at h
    rw [hseen] at h
    cases h _ (List.mem_append_left _ (List.mem_singleton_self _))

/-- Fields with which nothing fatal is wrong. -/
theorem vacant_of_checkFields {path type : Text} {item : Item} (h : ∀ i ∈ checkFields path type item, i.fatal = false) :
    ∀ f ∈ (requiredFields.get? type).getD [], vacant (item.member f) = false := by
  intro f hf
  by_contra hvacant
  rw [Bool.not_eq_false] at hvacant
  have hmissing : f ∈ ((requiredFields.get? type).getD []).filter fun f => vacant (item.member f) :=
    List.mem_filter.mpr ⟨hf, hvacant⟩
  have hmissing := List.mem_map_of_mem
    (f := fun f => (⟨path ++ "." ++ f, "Missing required field.", true⟩ : Issue)) hmissing
  cases h _ (List.mem_append_left _ (List.mem_append_left _ hmissing))

theorem passable_of_checkType {path : Text} {item : Item} (h : ∀ i ∈ checkType path item, i.fatal = false) :
    item.Passable := by
  unfold checkType at h
  split at h
  · next type htype =>
    refine ⟨⟨type, htype⟩, fun type' htype' hkind => ?_⟩
    rw [htype, Json.string.injEq] at htype'
    subst htype'
    simp only [hkind, if_true] at h
    split at h
    · cases h _ (List.mem_singleton_self _)
    · exact vacant_of_checkFields h
  · cases h _ (List.mem_singleton_self _)

/-- **What a check without fatal issues says of items**: each passes, no two have one id, and no id was taken before. -/
theorem passable_of_checkItems : ∀ {items : List Item} {place : Nat} {seen : Table Nat},
    (∀ i ∈ checkItems place seen items, i.fatal = false) → (∀ item ∈ items, item.Passable) ∧
      items.Pairwise (fun item item' => ∀ id, item.id? = some id → item'.id? ≠ some id) ∧
      ∀ item ∈ items, ∀ id, item.id? = some id → seen.get? id = none
  | [], _, _, _ => ⟨by simp, .nil, by simp⟩
  | item :: items, place, seen, h => by
    unfold checkItems at h
    simp only at h
    split at h
    · cases h _ List.mem_cons_self
    · next id hid =>
      have hid : item.id? = some id := by
        split at hid
        · next t ht => rw [Item.id?_of_string ht, hid]
        · cases hid
      simp only [List.forall_mem_append] at h
      obtain ⟨⟨hcheckId, hcheckType⟩, hrest⟩ := h
      have hseen := get?_of_checkId hcheckId
      rw [hseen, Option.isSome_none, if_neg (by simp)] at hrest
      obtain ⟨hpass, hapart, hfree⟩ := passable_of_checkItems hrest
      have hlater : ∀ item' ∈ items, ∀ id', item'.id? = some id' → id ≠ id' ∧ seen.get? id' = none := by
        intro item' hmem id' hid'
        have hget := hfree item' hmem id' hid'
        rw [Table.get?_set] at hget
        split at hget
        · cases hget
        · next hne => exact ⟨hne, hget⟩
      refine ⟨List.forall_mem_cons.mpr ⟨passable_of_checkType hcheckType, hpass⟩,
        List.pairwise_cons.mpr ⟨fun item' hmem id₁ hid₁ hid' => ?_, hapart⟩,
        List.forall_mem_cons.mpr ⟨fun id' hid' => ?_, fun item' hmem id' hid' => (hlater item' hmem id' hid').2⟩⟩
      · rw [hid, Option.some.injEq] at hid₁
        exact (hlater item' hmem id₁ hid').1 hid₁
      · rw [hid, Option.some.injEq] at hid'
        exact hid' ▸ hseen

/-- A library in which nothing fatal is found has passable items with ids of their own. -/
theorem passable_of_check {origin : Text} {v : Json} (h : ∀ i ∈ check origin v, i.fatal = false) :
    ((∃ vs, v = .array vs) ∨ ∃ ms, v = .object ms) ∧ (∀ item ∈ items v, item.Passable) ∧
      (items v).Pairwise fun item item' => ∀ id, item.id? = some id → item'.id? ≠ some id := by
  unfold check at h
  split at h
  · obtain ⟨hpass, hapart, -⟩ := passable_of_checkItems h
    exact ⟨.inl ⟨_, rfl⟩, hpass, hapart⟩
  · obtain ⟨hpass, hapart, -⟩ := passable_of_checkItems h
    exact ⟨.inr ⟨_, rfl⟩, hpass, hapart⟩
  · cases h _ (List.mem_singleton_self _)

/-! ## Fields that are there -/

/-- A member that is not vacant is read as a text. -/
theorem blank_of_vacant {item : Item} {name : Text} (h : vacant (item.member name) = false) :
    (item.text? name).all Text.blank = false := by
  have hplain : (item.member name).plain.blank = false := by
    refine blank_plain fun t ht => ?_
    rwa [ht] at h
  have htext : item.text? name = some (item.member name).plain.trim := by
    unfold Item.text? text?
    split
    · next hnull => rw [hnull] at h; cases h
    · exact Text.trimmed?_eq_trim hplain
  rw [htext, Option.all_some]
  exact blank_of_text? htext

/-- **The conditions that a check leaves out**: the type is written without blanks around it, and where it requires a
page, the pages begin with one. -/
structure Item.Regular (item : Item) : Prop where
  type : ∀ type, item.member "type" = .string type → type.trim = type
  page : ∀ type, item.member "type" = .string type → "page".toList ∈ (requiredFields.get? type).getD [] →
    (firstPage? (item.member "page")).isSome = true

/-- A text that is there is not blank. -/
theorem blank_of_isSome {v : Json} (h : (text? v).isSome = true) : (text? v).all Text.blank = false := by
  obtain ⟨t, ht⟩ := Option.isSome_iff_exists.mp h
  rw [ht]
  exact blank_of_text? ht

theorem blank_of_firstPage?_isSome {v : Json} (h : (firstPage? v).isSome = true) :
    (firstPage? v).all Text.blank = false := by
  obtain ⟨t, ht⟩ := Option.isSome_iff_exists.mp h
  rw [ht]
  exact blank_of_firstPage? ht

section Fields

variable {item : Item} {s : Source} {year : Option Int}

/-- The title of a source is that of its item. -/
theorem lacks_title (htitle : s.title = item.text? "title") (h : vacant (item.member "title") = false) :
    s.lacks .title = false := by
  show s.title.all Text.blank = false
  rw [htitle]
  exact blank_of_vacant h

theorem fullFields_of_book (htitle : s.lacks .title = false) (hwork : work item year .book = .ok s.work) :
    ∀ f ∈ s.fullFields, s.lacks f = false := by
  have hw := (Except.ok.inj hwork).symm
  simp only [Source.fullFields, hw, List.forall_mem_singleton, htitle]

theorem fullFields_of_chapter (htitle : s.lacks .title = false) (hwork : work item year .chapter = .ok s.work)
    (hcontainer : vacant (item.member "container-title") = false) : ∀ f ∈ s.fullFields, s.lacks f = false := by
  have hw := (Except.ok.inj hwork).symm
  simp only [Source.fullFields, hw, List.forall_mem_cons, htitle, true_and]
  refine ⟨?_, by simp⟩
  simp only [Source.lacks, Source.field, hw]
  exact blank_of_vacant hcontainer

/-- An article has the fields of its item. -/
theorem article_eq_ok {consecutive : Bool} {a : Article} (h : article item consecutive = .ok a) :
    a.container = item.text? "container-title" ∧ a.volume = item.text? "volume" ∧
      a.page = firstPage? (item.member "page") ∧ a.consecutive = consecutive := by
  unfold article at h
  cases consecutive with
  | true =>
    cases h
    exact ⟨rfl, rfl, rfl, rfl⟩
  | false =>
    obtain ⟨_, _, h⟩ := Except.bind_ok h
    cases h
    exact ⟨rfl, rfl, rfl, rfl⟩

theorem fullFields_of_article {consecutive : Bool} (htitle : s.lacks .title = false)
    (hwork : Work.article <$> article item consecutive = .ok s.work)
    (hcontainer : vacant (item.member "container-title") = false)
    (hvolume : consecutive = true → vacant (item.member "volume") = false)
    (hpage : (firstPage? (item.member "page")).isSome = true) : ∀ f ∈ s.fullFields, s.lacks f = false := by
  rw [← bind_pure_comp] at hwork
  obtain ⟨a, ha, hw⟩ := Except.bind_ok hwork
  have hw := (Except.ok.inj hw).symm
  obtain ⟨hc, hv, hp, rfl⟩ := article_eq_ok ha
  have hlacksContainer : s.lacks .container = false := by
    simp only [Source.lacks, Source.field, hw, hc]
    exact blank_of_vacant hcontainer
  have hlacksPage : s.lacks .page = false := by
    simp only [Source.lacks, Source.field, hw, hp]
    exact blank_of_firstPage?_isSome hpage
  simp only [Source.fullFields, hw, List.cons_append, List.nil_append, List.forall_mem_cons, htitle, hlacksPage,
    hlacksContainer, true_and]
  split
  · next hconsecutive =>
    simp only [List.forall_mem_singleton, Source.lacks, Source.field, Source.volume, hw, hv]
    exact blank_of_vacant (hvolume hconsecutive)
  · simp

theorem fullFields_of_manuscript (htitle : s.lacks .title = false) (hwork : work item year .manuscript = .ok s.work) :
    ∀ f ∈ s.fullFields, s.lacks f = false := by
  have hw := (Except.ok.inj hwork).symm
  simp only [Source.fullFields, hw, List.forall_mem_cons, htitle, true_and]
  split
  · next hcontainer =>
    simp only [List.forall_mem_singleton, Source.lacks, Source.field, hw]
    have hsome : (item.text? "container-title").isSome = true := by
      obtain ⟨c, hc⟩ := Option.isSome_iff_exists.mp hcontainer
      rw [show item.text? "container-title" = some c from (Option.filter_eq_some_iff.mp hc).1, Option.isSome_some]
    exact blank_of_isSome hsome
  · simp

theorem fullFields_of_case (htitle : s.lacks .title = false) (hwork : work item year .case = .ok s.work)
    (hreporter : vacant (item.member "container-title") = false) (hvolume : vacant (item.member "volume") = false)
    (hpage : (firstPage? (item.member "page")).isSome = true) : ∀ f ∈ s.fullFields, s.lacks f = false := by
  have hw := (Except.ok.inj hwork).symm
  simp only [Source.fullFields, hw, List.forall_mem_cons, htitle, true_and]
  refine ⟨?_, ?_, ?_, by simp⟩
  · simp only [Source.lacks, Source.field, hw]
    exact blank_of_vacant hreporter
  · simp only [Source.lacks, Source.field, Source.volume, hw]
    exact blank_of_vacant hvolume
  · simp only [Source.lacks, Source.field, hw]
    exact blank_of_firstPage?_isSome hpage

/-- **A source lacks no field that its full citation requires**, if its item passes and is regular. -/
theorem fullFields_of_passable (hpass : item.Passable) (hreg : item.Regular) (hs : source? item = .ok (some s)) :
    ∀ f ∈ s.fullFields, s.lacks f = false := by
  obtain ⟨kind, year, hid, hkind, htitle, hwork⟩ := source?_eq_some hs
  obtain ⟨type, htype⟩ := hpass.type
  have htext : item.text? "type" = type.trimmed? := by rw [Item.text?, htype, text?_string]
  obtain ⟨type', htrimmed, hkind⟩ := Option.bind_eq_some_iff.mp hkind
  rw [htext] at htrimmed
  obtain rfl : type' = type := (Text.trimmed?_eq_some htrimmed).trans (hreg.type type htype)
  have hfields := hpass.fields type' htype (by rw [hkind]; rfl)
  have hpage := hreg.page type' htype
  -- One case for each type that is supported.
  have hmem := Table.mem_of_get? hkind
  simp only [kinds, List.mem_cons, Prod.mk.injEq, List.not_mem_nil, or_false] at hmem
  rcases hmem with ⟨rfl, rfl⟩ | ⟨rfl, rfl⟩ | ⟨rfl, rfl⟩ | ⟨rfl, rfl⟩ | ⟨rfl, rfl⟩ | ⟨rfl, rfl⟩ | ⟨rfl, rfl⟩ | ⟨rfl, rfl⟩
  · exact fullFields_of_book (lacks_title htitle (hfields _ (by decide))) hwork
  · exact fullFields_of_chapter (lacks_title htitle (hfields _ (by decide))) hwork (hfields _ (by decide))
  · exact fullFields_of_article (lacks_title htitle (hfields _ (by decide))) hwork (hfields _ (by decide))
      (fun _ => hfields _ (by decide)) (hpage (by decide))
  · exact fullFields_of_article (lacks_title htitle (hfields _ (by decide))) hwork (hfields _ (by decide))
      (fun _ => hfields _ (by decide)) (hpage (by decide))
  · exact fullFields_of_article (lacks_title htitle (hfields _ (by decide))) hwork (hfields _ (by decide))
      (fun h => by cases h) (hpage (by decide))
  · exact fullFields_of_article (lacks_title htitle (hfields _ (by decide))) hwork (hfields _ (by decide))
      (fun h => by cases h) (hpage (by decide))
  · exact fullFields_of_manuscript (lacks_title htitle (hfields _ (by decide))) hwork
  · exact fullFields_of_case (lacks_title htitle (hfields _ (by decide))) hwork (hfields _ (by decide))
      (hfields _ (by decide)) (hpage (by decide))

end Fields

/-! ## Libraries -/

/-- The item of an article. -/
def anArticle : Item := [
  ("id", .string "a"), ("type", .string "article"), ("title", .string "A"), ("container-title", .string "J"),
  ("volume", .int 3), ("page", .string "10-20")]

/-- **A library in which a check finds nothing fatal** is not refused. Each of its sources is that of an item, and if the
item is regular, no citation of the source fails for a missing field, in whatever form and with whatever pincite and
parenthetical. -/
theorem check_sound {origin : Text} {v : Json} (h : ∀ i ∈ check origin v, i.fatal = false) :
    (∀ log path fault, (outcome (library origin v) log).1 ≠ .error (.unloadable path fault)) ∧
    ∀ log l log', Gives (library origin v) log l log' → ∀ id s, l.get? id = some s →
      ∃ item ∈ items v, source? item = .ok (some s) ∧
        (item.Regular → ∀ form pincite parenthetical k id' field note,
          (outcome (s.cite form pincite parenthetical) k).1 ≠ .error (.missingField id' field note)) := by
  obtain ⟨hroot, hpass, hapart⟩ := passable_of_check h
  have hlibrary : library origin v = (addItems origin [] (items v) >>= fun l =>
      Logging.note (.parsedLibrary l.length origin) >>= fun _ => pure l) := by
    rcases hroot with ⟨vs, rfl⟩ | ⟨ms, rfl⟩ <;> rfl
  refine ⟨fun log path fault he => ?_, fun log l log' hl id s hs => ?_⟩
  · rw [hlibrary] at he
    rcases outcome_bind_error he with he | ⟨l, _, -, he⟩
    · rcases addItems_error hapart (fun _ _ _ _ => rfl) he with h | h <;> cases h
    · cases he
  · rw [hlibrary, gives_bind] at hl
    obtain ⟨l₁, log₁, hl₁, hl⟩ := hl
    simp only [gives_bind, gives_pure] at hl
    obtain ⟨_, _, _, rfl, _⟩ := hl
    rcases addItems_mem hl₁ id s hs with hs | ⟨item, hmem, hitem⟩
    · cases hs
    · refine ⟨item, hmem, hitem, fun hreg form pincite parenthetical k id' field note he => ?_⟩
      have hlacking := (s.cite_missing he).2.2
      have hfield := List.mem_of_find?_eq_some hlacking
      have hfull := fullFields_of_passable (hpass item hmem) hreg hitem field (s.required_subset form hfield)
      rw [List.find?_some hlacking] at hfull
      cases hfull

/-- The check finds nothing in a library with one article, which is loaded and can be cited. -/
theorem check_sound_article : (∀ i ∈ check "l" (.array [.object anArticle]), i.fatal = false) ∧
    ∃ l log' s, Gives (library "l" (.array [.object anArticle])) [] l log' ∧ l.get? "a" = some s ∧
      ∀ form pincite parenthetical k id' field note,
        (outcome (s.cite form pincite parenthetical) k).1 ≠ .error (.missingField id' field note) := by
  have hcheck : ∀ i ∈ check "l" (.array [.object anArticle]), i.fatal = false := by decide +kernel
  obtain ⟨l, log', hl, hsome⟩ := exists_gives_that (x := library "l" (.array [.object anArticle])) (s := [])
    (p := fun l => (l.get? "a").isSome) (by decide +kernel)
  obtain ⟨s, hs⟩ := Option.isSome_iff_exists.mp hsome
  obtain ⟨item, hmem, -, hcites⟩ := (check_sound hcheck).2 [] l log' hl "a" s hs
  have hreg : Item.Regular anArticle := by
    have htype : Item.member anArticle "type" = .string "article" := rfl
    refine ⟨fun type h => ?_, fun _ _ _ => by decide +kernel⟩
    rw [htype, Json.string.injEq] at h
    exact h ▸ by decide
  obtain rfl : item = anArticle := List.mem_singleton.mp hmem
  exact ⟨hcheck, l, log', s, hl, hs, hcites hreg⟩

/-! ## What the check lets pass -/

/-- A check finds nothing fatal in the value, which is loaded; but the source with the id cannot be cited in full, for
want of a field. -/
def PassesUnusable (v : Json) (id : Text) (field : Field) : Prop :=
  (∀ i ∈ check "l" v, i.fatal = false) ∧ ∃ l log' s, Gives (library "l" v) [] l log' ∧ l.get? id = some s ∧
    ∀ k, (outcome (s.cite (.full false) none none) k).1 = .error (.missingField id field none)

theorem passesUnusable_of_lacks {v : Json} {id : Text} {field : Field} (h : ∀ i ∈ check "l" v, i.fatal = false)
    (hl : ((outcome (library "l" v) []).1.toOption.any fun l =>
      (l.get? id).any fun s => s.id = id && s.firstLacking (.full false) = some field) = true) :
    PassesUnusable v id field := by
  obtain ⟨l, log', hload, hs⟩ := exists_gives_that hl
  obtain ⟨s, hs, hp⟩ := (Option.any_eq_true _ _).mp hs
  simp only [Bool.and_eq_true, decide_eq_true_eq] at hp
  obtain ⟨rfl, hlacking⟩ := hp
  have hpin : Pincite.clean s.id none = .ok none := rfl
  exact ⟨h, l, log', s, hload, hs, (s.cite_demands (.full false) hpin).lacking field hlacking⟩

/-- **A type in blanks, and a dash for a page**: the check lets both pass, and then a field is missing. -/
theorem check_passes_unusable :
    PassesUnusable (.array [.object [("id", .string "x"), ("type", .string " book ")]]) "x" .title ∧
      PassesUnusable (.array [.object (anArticle.set "page" (.string "-"))]) "a" .page :=
  ⟨passesUnusable_of_lacks (by decide +kernel) (by decide +kernel),
    passesUnusable_of_lacks (by decide +kernel) (by decide +kernel)⟩

end Footcite.Csl
