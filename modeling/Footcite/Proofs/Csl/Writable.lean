import Footcite.Csl.Issue
import Footcite.Proofs.Note.Locations

/-!
# Ids that can be written

The check of a library and the reading of a note each have a class of characters for an id. A writable id is read back
as the mention of its source unless it holds a comma, which the check allows and a mention does not
(`Token.isMentionId_of_isWritableId`). So the body `[@id]`, for the id of an item without an issue about its id, is the
one mention of that id, or it is malformed for the comma (`Csl.written_id_of_check`). The check passes such an id
(`Csl.check_passes_comma`).
-/

namespace Footcite

open Csl (isWritableId)

/-! ## The two classes -/

/-- A writable id is not empty, and has no blanks and none of the signs. -/
theorem Csl.isWritableId_iff {id : Text} : isWritableId id = true ↔
    id ≠ [] ∧ ∀ c ∈ id, isBlank c = false ∧ c ∉ "[]@;$?".toList := by
  simp [isWritableId]

/-- **The comma is the difference**: of the writable ids, those of mentions are the ones without it. -/
theorem Token.isMentionId_of_isWritableId {id : Text} (h : isWritableId id = true) :
    isMentionId id = true ↔ ',' ∉ id := by
  obtain ⟨hne, hid⟩ := Csl.isWritableId_iff.mp h
  constructor
  · intro hmention hcomma
    have := List.all_eq_true.mp (Bool.and_eq_true_iff.mp hmention).2 ',' hcomma
    revert this
    decide
  · intro hcomma
    refine Bool.and_eq_true_iff.mpr ⟨by simpa using hne, List.all_eq_true.mpr fun c hc => ?_⟩
    obtain ⟨hblank, hsign⟩ := hid c hc
    have hother : c ≠ ',' := fun h => hcomma (h ▸ hc)
    simp_all

/-- A writable id holds no square brackets. -/
theorem Csl.ne_of_isWritableId {id : Text} (h : isWritableId id = true) : ∀ c ∈ id, c ≠ '[' ∧ c ≠ ']' := by
  intro c hc
  have := ((isWritableId_iff.mp h).2 c hc).2
  constructor <;> rintro rfl <;> exact this (by decide)

/-! ## Reading an id back -/

/-- The body that mentions a source and holds nothing else. -/
def Note.bareMention (id : Text) : Text := "[@" ++ id ++ "]"

/-- **A writable id in a note**: the one mention of a source, or a malformed token if there is a comma in it. -/
theorem Note.read_bareMention (position number : Int) {id : Text} (h : isWritableId id = true) :
    read position number (bareMention id) =
      if ',' ∈ id then .error (.malformed (bareMention id) .notAnId number)
      else .ok { position, number, segments := [.mention { source := id } []] } := by
  have hmark : Token.isMark '@' = true := rfl
  have hread := Token.read_square hmark (Csl.ne_of_isWritableId h) []
  have hbody : bareMention id = '[' :: '@' :: (id ++ [']']) := by simp [bareMention]
  split
  · next hcomma =>
    have hid : Token.isMentionId id = false := by simpa [hcomma] using Token.isMentionId_of_isWritableId h
    have hat : '@' ∉ id := fun hc => ((Csl.isWritableId_iff.mp h).2 '@' hc).2 (by decide)
    have hmalformed : Token.read '[' ('@' :: (id ++ [']'])) = .error (bareMention id, .notAnId) := by
      rw [hread, Token.bracketed, hid, hbody]
      simp [hat]
    rw [read, hbody, Segment.readFrom_malformed hmalformed, hbody]
    rfl
  · next hcomma =>
    have hid : Token.isMentionId id = true := (Token.isMentionId_of_isWritableId h).mpr hcomma
    have hscan : Pincite.scan [] = (none, []) := by decide +kernel
    have hmention := (Token.read_mention hid).trans (Token.mentionOf_bare hscan (by simp))
    rw [read, hbody, Segment.readFrom_mention hmention, Segment.readFrom_nil]
    rfl

namespace Csl

/-! ## What a check says about ids -/

/-- The path under which issues about the id of an item are told: its place, and the id if it is not blank. -/
def idPath (place : Nat) (t : Text) : Text :=
  let path := "items[" ++ Numeral.ofNat place ++ "]"
  match t.trimmed? with
  | none => path ++ ".id"
  | some id => path ++ "(" ++ id ++ ")" ++ ".id"

/-- An issue about an id that cannot be written. -/
theorem exists_issue_of_checkId (path : Text) {id : Text} (seen : Table Nat) (h : isWritableId id = false) :
    ∃ i ∈ checkId path id seen, i.path = path ++ ".id" := by
  refine ⟨⟨path ++ ".id", "Id cannot be written inside a [@id] token.", true⟩, ?_, rfl⟩
  exact List.mem_append_right _ (by simp [h])

/-- **An id that cannot be written has an issue**, wherever its item stands. -/
theorem exists_issue_of_checkItems {t : Text} (ht : isWritableId t.trim = false) :
    ∀ (place : Nat) (seen : Table Nat) {items : List Item} {n : Nat} {item : Item}, items[n]? = some item →
      item.member "id" = .string t → ∃ i ∈ checkItems place seen items, i.path = idPath (place + n) t
  | _, _, [], _, _, hitem, _ => by simp at hitem
  | place, seen, first :: rest, 0, item, hitem, hid => by
    obtain rfl : first = item := by simpa using hitem
    simp only [checkItems, hid]
    cases hblank : t.trimmed? with
    | none =>
      exact ⟨_, List.mem_cons_self, by simp [idPath, hblank]⟩
    | some id =>
      rw [← Text.trimmed?_eq_some hblank] at ht
      obtain ⟨i, hi, hpath⟩ :=
        exists_issue_of_checkId ("items[" ++ Numeral.ofNat place ++ "]" ++ "(" ++ id ++ ")") seen ht
      refine ⟨i, List.mem_append_left _ (List.mem_append_left _ (by simpa using hi)), ?_⟩
      simp only [idPath, hblank, hpath, Nat.add_zero]
  | place, seen, first :: rest, n + 1, item, hitem, hid => by
    have hitem : rest[n]? = some item := by simpa using hitem
    have hrest (seen' : Table Nat) := exists_issue_of_checkItems ht (place + 1) seen' hitem hid
    rw [show place + (n + 1) = place + 1 + n by omega]
    rw [checkItems]
    split
    · obtain ⟨i, hi, hpath⟩ := hrest seen
      exact ⟨i, List.mem_cons_of_mem _ hi, hpath⟩
    · obtain ⟨i, hi, hpath⟩ := hrest _
      exact ⟨i, List.mem_append_right _ hi, hpath⟩

/-- The items are those that the check goes through. -/
theorem check_eq_checkItems {origin : Text} {v : Json} {item : Item} (h : item ∈ items v) :
    check origin v = checkItems 0 [] (items v) := by
  unfold check
  split
  · rfl
  · rfl
  · next harray hobject =>
    cases v with
    | array vs => exact absurd rfl (harray vs)
    | object ms => exact absurd rfl (hobject ms)
    | null => cases h
    | bool => cases h
    | int => cases h
    | float => cases h
    | string => cases h

/-- **An id without an issue, in a note.** Where the check of a library has nothing to say about the id of an item, the
body that mentions this id is read as the one mention of it, unless the id holds a comma: then it is malformed. -/
theorem written_id_of_check (position number : Int) {origin t : Text} {v : Json} {n : Nat} {item : Item}
    (hitem : (items v)[n]? = some item) (hid : item.member "id" = .string t)
    (hcheck : ∀ i ∈ check origin v, i.path ≠ idPath n t) :
    Note.read position number ("[@" ++ t.trim ++ "]") =
      if ',' ∈ t.trim then .error (.malformed ("[@" ++ t.trim ++ "]") .notAnId number)
      else .ok { position, number, segments := [.mention { source := t.trim } []] } := by
  refine Note.read_bareMention position number ?_
  rw [check_eq_checkItems (List.mem_of_getElem? hitem)] at hcheck
  by_contra hwritable
  rw [Bool.not_eq_true] at hwritable
  obtain ⟨i, hi, hpath⟩ := exists_issue_of_checkItems hwritable 0 [] hitem hid
  exact hcheck i hi (by rw [hpath, Nat.zero_add])

/-- The second item has an id with blanks at its ends, which the check cuts off, and with signs that need no care. The
check finds nothing wrong with it, though its title is missing. -/
theorem written_id_of_check_trimmed :
    Note.read 2 7 "[@doe/2020:b]" =
      .ok { position := 2, number := 7, segments := [.mention { source := "doe/2020:b" } []] } := by
  let item : Item := [("id", .string " doe/2020:b "), ("type", .string "book")]
  let v : Json := .array [.object [("id", .string "a;b")], .object item]
  have hitem : (items v)[1]? = some item := rfl
  have hcheck : ∀ i ∈ check "l" v, i.path ≠ idPath 1 " doe/2020:b " := by decide +kernel
  have hread := written_id_of_check 2 7 hitem rfl hcheck
  have htrim : Text.trim " doe/2020:b " = "doe/2020:b" := by decide +kernel
  rw [htrim] at hread
  exact hread

/-- **A comma passes the check**: nothing is wrong with a library of one book whose id holds a comma, and no note that
mentions this id can be read. -/
theorem check_passes_comma : ∃ item : Item,
    item.member "id" = .string "a,b" ∧ item.member "type" = .string "book" ∧
    check "l" (.array [.object item]) = [] ∧ Note.read 1 1 "[@a,b]" = .error (.malformed "[@a,b]" .notAnId 1) :=
  ⟨[("id", .string "a,b"), ("type", .string "book"), ("title", .string "T")], rfl, rfl, by decide +kernel,
    by decide +kernel⟩

end Csl

end Footcite
