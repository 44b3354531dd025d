import Footcite.Proofs.Note.Openings
import Footcite.Proofs.Note.Reads
import Footcite.Proofs.Note.Token
import Footcite.Proofs.Pincite.Listed

/-!
# Places after a mention

A note that cites a source at a list of places: its pincite is the list, up to the first placeholder that stands beside
something else, and the rest of the list is left behind as text (`Note.read_places`).
-/

namespace Footcite

open Pincite

/-- A text without brackets holds no tokens. -/
theorem Token.occursIn_of_unbracketed {t : Text} (h : ∀ c ∈ t, isBracket c = false) : occursIn t = false := by
  rw [occursIn_eq]
  induction t with
  | nil => rfl
  | cons c t ih =>
    obtain ⟨hc, ht⟩ := List.forall_mem_cons.mp h
    have hopening : c ≠ '[' := by
      rintro rfl
      revert hc
      decide
    rw [opensIn, Bool.false_and, Bool.false_or, decide_eq_false hopening, ih ht]

/-- A bracket is read by what it holds. -/
theorem Token.read_square {mark : Char} {inside : Text} (hmark : isMark mark = true)
    (h : ∀ c ∈ inside, c ≠ '[' ∧ c ≠ ']') (after : Text) :
    read '[' (mark :: (inside ++ ']' :: after)) = bracketed mark inside after := by
  have henclosed : enclosed? square (inside ++ ']' :: after) = some (inside, after) :=
    (Brackets.enclosed?_eq_some (by decide)).mpr ⟨rfl, .of_free (by decide) h⟩
  simp [read, hmark, henclosed]

/-- A mention is read together with what follows it. -/
theorem Token.read_mention {id after : Text} (hid : isMentionId id = true) :
    read '[' ('@' :: (id ++ ']' :: after)) = mentionOf id after := by
  rw [read_square rfl (ne_of_isMentionId hid), bracketed, hid]
  rfl

/-- A mention before a text without parentheses. -/
theorem Token.mentionOf_bare {id after rest : Text} {pincite : Option Text} (h : scan after = (pincite, rest))
    (hrest : ∀ c ∈ rest, isBracket c = false) : mentionOf id after = .ok (.mention id pincite none, rest) := by
  simp only [mentionOf, h]
  split
  · next opened hopened =>
    have hmem : '(' ∈ rest := List.dropWhile_subset _ (hopened ▸ List.mem_cons_self)
    exact absurd (hrest '(' hmem) (by decide)
  · rfl

/-- **The places after a mention.** The pincite is the list of places, up to the first placeholder, or the placeholder
alone where it comes first; what is left of the list is text. Nothing is left just where the list is a single place or
has no placeholder. -/
theorem Note.read_places (position number : Int) {id at_ : Text} (hid : Token.isMentionId id = true)
    (hat : at_ = [] ∨ at_ = "at ") (L : PlaceList) :
    read position number ("[@" ++ id ++ "] " ++ at_ ++ L.written ++ ";") =
      .ok { position, number, segments := [
        .mention { source := id, pincite := some (at_ ++ L.first ++ PlaceList.text L.taken) } [],
        .text (PlaceList.text L.left ++ ";")] } ∧
    (L.left = [] ↔
      L.further = [] ∨ isPlaceholder L.first = false ∧ ∀ p ∈ L.further, isPlaceholder p.2 = false) := by
  refine ⟨?_, L.left_eq_nil⟩
  have hleading : IsLeadingAt at_ := by
    rcases hat with rfl | rfl
    · exact .none
    · exact .written (.cons rfl (.cons rfl .nil)) (List.cons_ne_nil ' ' []) (by decide)
  have hleft : ∀ c ∈ PlaceList.text L.left ++ ";", isBracket c = false := by
    intro c hc
    rcases List.mem_append.mp hc with hc | hc
    · exact PlaceList.unbracketed (fun p hp => L.taken_append_left ▸ List.mem_append_right _ hp) c hc
    · rw [List.mem_singleton.mp hc]
      decide
  have hblank : Text.blank [' '] = true := by decide
  have hscan := scan_list L hblank hleading
  have hread := (Token.read_mention hid).trans (Token.mentionOf_bare hscan hleft)
  have hbody : "[@" ++ id ++ "] " ++ at_ ++ L.written ++ ";" =
      '[' :: '@' :: (id ++ ']' :: ([' '] ++ (at_ ++ (L.written ++ ";")))) := by simp
  have hplain : Segment.plain (PlaceList.text L.left ++ ";") = [.text (PlaceList.text L.left ++ ";")] := by
    cases h : PlaceList.text L.left <;> rfl
  rw [hbody, read, Segment.readFrom_mention hread, Segment.readFrom_plain (Token.occursIn_of_unbracketed hleft), hplain,
    List.append_assoc at_]
  rfl

/-- Three places before the placeholder and one after it. -/
def placesAndPlaceholder : PlaceList where
  first := "5-7"
  further := [(", ", "§ 12 n.4"), (" & ", "¶ 3"), (" and ", "tk"), (", ", "9")]
  first_isPlace := by decide +kernel
  further_isPlace := by decide +kernel

theorem Note.read_places_placeholder :
    read 1 1 ("[@doe] at 5-7, § 12 n.4 & ¶ 3 and tk, 9;") = .ok { position := 1, number := 1, segments := [
      .mention { source := "doe", pincite := some "at 5-7, § 12 n.4 & ¶ 3" } [], .text " and tk, 9;"] } := by
  have hid : Token.isMentionId "doe" = true := by decide +kernel
  exact (read_places 1 1 hid (.inr rfl) placesAndPlaceholder).1

/-- **A placeholder splits a list**: not all of it is taken for the pincite. -/
theorem Note.read_splits_places : ∃ L : PlaceList, L.written = "tk, 5" ∧
    read 1 1 ("[@x] at " ++ L.written ++ ";") ≠ .ok { position := 1, number := 1, segments := [
      .mention { source := "x", pincite := some ("at " ++ L.written) } [], .text ";"] } := by
  let L : PlaceList := {
    first := "tk"
    further := [(", ", "5")]
    first_isPlace := by decide +kernel
    further_isPlace := by decide +kernel }
  exact ⟨L, rfl, by decide +kernel⟩

end Footcite
