import Footcite.Proofs.Pincite.Longest

/-!
# Lists of places

What a clause takes of a list of places, each a location or the placeholder, that are joined as they may be written
(`Pincite.PlaceList`): the locations up to the first placeholder, or the placeholder alone where it comes first
(`Pincite.scan_list`). So a list is taken whole unless the placeholder stands in it beside something else
(`Pincite.PlaceList.left_eq_nil`).
-/

namespace Footcite.Pincite

open Recogniser

/-! ## Locations in a longer text -/

section

variable {u v w : Text}

theorem endsWord_append_of_endsWord (hw : w.endsWord = true) (hv : v.endsWord = true) : (w ++ v).endsWord = true := by
  cases w with
  | nil => exact hv
  | cons c w => exact hw

theorem IsNumeral.extend (h : IsNumeral u w) (hv : v.endsWord = true) : IsNumeral u (w ++ v) := by
  obtain ⟨hne, hdigits, hlength, hletter, hend⟩ := h
  exact .mk hne hdigits hlength hletter (endsWord_append_of_endsWord hend hv)

/-- What holds of a phrase where the text goes on holds of several. -/
theorem extend_repeated {L : Phrase} (hL : ∀ {u w : Text}, L u w → L u (w ++ v)) (h : Phrase.Repeated L u w) :
    Phrase.Repeated L u (w ++ v) := by
  induction h with
  | none => exact .none _
  | more hu _ ih => exact .more (by simpa using hL hu) ih

theorem IsNumber.extend (h : IsNumber u w) (hv : v.endsWord = true) : IsNumber u (w ++ v) := by
  have hfurther {u w : Text} : IsFurtherNumeral u w → IsFurtherNumeral u (w ++ v)
    | .mk hmark hu => .mk hmark (hu.extend hv)
  obtain ⟨hu, hrest⟩ := h
  exact .mk (by simpa using hu.extend hv) (extend_repeated hfurther hrest)

theorem IsSpan.extend (h : IsSpan u w) (hv : v.endsWord = true) : IsSpan u (w ++ v) := by
  cases h with
  | single hu => exact .single (hu.extend hv)
  | range hu hlead hdash htrail hw => exact .range (by simpa using hu.extend hv) hlead hdash htrail (hw.extend hv)

theorem IsNoteReference.extend (h : IsNoteReference u w) (hv : v.endsWord = true) : IsNoteReference u (w ++ v) := by
  obtain ⟨hsign, hblanks, hu⟩ := h
  exact .mk hsign hblanks (hu.extend hv)

/-- **A location by itself is one in a longer text**, up to the end of a word. -/
theorem IsLocation.extend (h : IsLocation u w) (hv : v.endsWord = true) : IsLocation u (w ++ v) := by
  cases h with
  | span hlabel hu hnote =>
    refine .span hlabel (by simpa using hu.extend hv) ?_
    cases hnote with
    | none => exact .none _
    | note hblanks hnote => exact .note hblanks (hnote.extend hv)
  | note hu => exact .note (hu.extend hv)
  | preamble hu => exact .preamble hu

/-! ## The ends of locations -/

/-- The text ends in a character that is no blank. -/
def EndsUnblank (t : Text) : Prop := ∃ init c, t = init ++ [c] ∧ isBlank c = false

theorem EndsUnblank.prepend {t : Text} (h : EndsUnblank t) (s : Text) : EndsUnblank (s ++ t) := by
  obtain ⟨init, c, rfl, hc⟩ := h
  exact ⟨s ++ init, c, (List.append_assoc ..).symm, hc⟩

theorem EndsUnblank.trimEnd {t : Text} (h : EndsUnblank t) : t.trimEnd = t := by
  obtain ⟨init, c, rfl, hc⟩ := h
  simp [Text.trimEnd, Text.dropEndWhile, hc]

/-- What all characters of a class make up, if it holds no blank. -/
theorem endsUnblank_of_all {p : Char → Bool} (hp : ∀ c, p c = true → isBlank c = false) (hne : u ≠ [])
    (h : u.all p = true) : EndsUnblank u := by
  have hlast := List.all_eq_true.mp h _ (List.getLast_mem hne)
  exact ⟨u.dropLast, u.getLast hne, (List.dropLast_append_getLast hne).symm, hp _ hlast⟩

/-- A word whose last letter or sign is no blank. -/
theorem endsUnblank_of_spells {ls : Text} {l : Char} (hl : ∀ c, sameLetter l c = true → isBlank c = false)
    (h : Text.Spells (ls ++ [l]) u) : EndsUnblank u := by
  obtain ⟨x, y, rfl, -, hy⟩ := Text.spells_append.mp h
  obtain _ | ⟨hc, ⟨⟩⟩ := hy
  exact ⟨x, _, rfl, hl _ hc⟩

theorem IsNumeral.endsUnblank (h : IsNumeral u w) : EndsUnblank u := by
  obtain @⟨digits, letter, _, hne, hdigits, -, hletter, -⟩ := h
  by_cases hnone : letter = []
  · subst hnone
    rw [List.append_nil]
    exact endsUnblank_of_all (fun c => isBlank_of_isDecimalDigit) hne hdigits
  · exact (endsUnblank_of_all (fun c => isBlank_of_isLatinLetter) hnone hletter).prepend digits

theorem IsNumber.endsUnblank (h : IsNumber u w) : EndsUnblank u := by
  obtain ⟨hu, hrest⟩ := h
  have hall : ∀ {x y : Text}, Phrase.Repeated IsFurtherNumeral x y → x = [] ∨ EndsUnblank x := by
    intro x y hx
    induction hx with
    | none => exact .inl rfl
    | more hfurther _ ih =>
      obtain ⟨-, hnumeral⟩ := hfurther
      rcases ih with rfl | ih
      · rw [List.append_nil]
        exact .inr (hnumeral.endsUnblank.prepend [_])
      · exact .inr (ih.prepend _)
  rcases hall hrest with rfl | hends
  · rw [List.append_nil]
    exact hu.endsUnblank
  · exact hends.prepend _

theorem IsSpan.endsUnblank (h : IsSpan u w) : EndsUnblank u := by
  cases h with
  | single hu => exact hu.endsUnblank
  | range hu hlead hdash htrail hw => exact (((hw.endsUnblank.prepend _).prepend [_]).prepend _).prepend _

theorem IsNoteReference.endsUnblank (h : IsNoteReference u w) : EndsUnblank u := by
  obtain ⟨-, -, hu⟩ := h
  exact (hu.endsUnblank.prepend _).prepend _

theorem IsLocation.endsUnblank (h : IsLocation u w) : EndsUnblank u := by
  cases h with
  | span _ hu hnote =>
    cases hnote with
    | none =>
      rw [List.append_nil]
      exact hu.endsUnblank.prepend _
    | note _ hnote => exact ((hnote.endsUnblank.prepend _).prepend _).prepend _
  | note hu => exact hu.endsUnblank
  | preamble hu =>
    have hu : Text.Spells ("pmbl".toList ++ ['.']) u := hu
    exact endsUnblank_of_spells (fun c => isBlank_of_sameLetter rfl (by decide)) hu

end

/-! ## Lists -/

/-- The placeholder, in whatever case. -/
def isPlaceholder (l : Text) : Bool := decide (List.Forall₂ (fun l c => sameLetter l c = true) placeholder l)

theorem isPlaceholder_iff {l : Text} : isPlaceholder l = true ↔ Text.Spells placeholder l := decide_eq_true_iff

/-- **A place**: a location by itself, or the placeholder. -/
def IsPlace (l : Text) : Prop := IsLocation l [] ∨ isPlaceholder l = true

/-- Whether a text is a place is told by recognising it. -/
theorem isPlace_iff {l : Text} : IsPlace l ↔ [] ∈ location l ∨ isPlaceholder l = true := by
  refine or_congr_left ?_
  rw [← accepts_location.mem, List.append_nil]

instance (l : Text) : Decidable (IsPlace l) := decidable_of_iff' _ isPlace_iff

theorem IsPlace.opens {l : Text} (h : IsPlace l) : Opens l := by
  rcases h with h | h
  · exact h.opens
  · exact opens_of_spells (by decide) (by decide) (isPlaceholder_iff.mp h)

theorem IsPlace.endsUnblank {l : Text} (h : IsPlace l) : EndsUnblank l := by
  rcases h with h | h
  · exact h.endsUnblank
  · have hspells : Text.Spells (['t'] ++ ['k']) l := isPlaceholder_iff.mp h
    refine endsUnblank_of_spells (fun c hc => ?_) hspells
    -- The k may be a Kelvin sign.
    by_contra hblank
    rw [Bool.not_eq_false] at hblank
    rw [sameLetter, toLower_of_isBlank hblank, show letterVariants.lookup 'k' = some ['\u212a'] from rfl] at hc
    have hk : (['k', '\u212a'].all fun c => !isBlank c) = true := by decide
    simpa [hblank] using List.all_eq_true.mp hk c (by simpa using hc)

/-- A place holds no brackets. -/
theorem IsPlace.unbracketed {l : Text} (h : IsPlace l) : ∀ c ∈ l, isBracket c = false := by
  rcases h with h | h
  · exact location_inside.unbracketed accepts_location h
  · have hword : Inside (word placeholder) := Inside.word (by decide)
    exact hword.unbracketed (v := []) (Accepts.word placeholder) (isPlaceholder_iff.mp h)

/-- What joins the places of a list. -/
def joiners : List Text := [", ", " & ", " and "]

/-- **A list of places**, each after the first with what joins it to the one before. -/
structure PlaceList where
  first : Text
  further : List (Text × Text)
  first_isPlace : IsPlace first
  further_isPlace : ∀ p ∈ further, p.1 ∈ joiners ∧ IsPlace p.2

namespace PlaceList

/-- Places as they are written after others. -/
def text (further : List (Text × Text)) : Text := further.flatMap fun p => p.1 ++ p.2

/-- The list as it is written. -/
def written (L : PlaceList) : Text := L.first ++ text L.further

/-- The places up to the first placeholder. -/
def beforePlaceholder (L : PlaceList) : List (Text × Text) := L.further.takeWhile fun p => !isPlaceholder p.2

/-- The places after the first that a clause takes with it. -/
def taken (L : PlaceList) : List (Text × Text) := if isPlaceholder L.first then [] else L.beforePlaceholder

/-- The places that a clause leaves. -/
def left (L : PlaceList) : List (Text × Text) :=
  if isPlaceholder L.first then L.further else L.further.dropWhile fun p => !isPlaceholder p.2

variable (L : PlaceList)

theorem taken_append_left : L.taken ++ L.left = L.further := by
  unfold taken left beforePlaceholder
  split
  · rfl
  · exact List.takeWhile_append_dropWhile

/-- **A list is taken whole** if it is a single place or has no placeholder. -/
theorem left_eq_nil : L.left = [] ↔
    L.further = [] ∨ isPlaceholder L.first = false ∧ ∀ p ∈ L.further, isPlaceholder p.2 = false := by
  unfold left
  split
  · next h => simp [h]
  · next h =>
    simp only [List.dropWhile_eq_nil_iff, Bool.not_eq_true', Bool.not_eq_true] at h ⊢
    constructor
    · exact fun hall => .inr ⟨h, hall⟩
    · rintro (hnil | ⟨-, hall⟩)
      · simp [hnil]
      · exact hall

end PlaceList

/-! ## What is recognised of a list -/

theorem isJoint_of_joiner {j : Text} (hj : j ∈ joiners) : IsJoint j := by
  simp only [joiners, List.mem_cons, List.not_mem_nil, or_false] at hj
  have hblank : Text.blank [' '] = true := by decide
  rcases hj with rfl | rfl | rfl
  · exact .mark (show Text.blank [] = true from rfl) (by decide) hblank
  · exact .mark hblank (by decide) hblank
  · exact .and (List.cons_ne_nil ' ' []) hblank (.cons rfl (.cons rfl (.cons rfl .nil))) (List.cons_ne_nil ' ' []) hblank

/-- A joiner goes on as no location does. -/
theorem goesOnIn_of_joiner {j : Text} (hj : j ∈ joiners) (t : Text) : (j ++ t).GoesOnIn (isOneOf ",&a") := by
  simp only [joiners, List.mem_cons, List.not_mem_nil, or_false] at hj
  rcases hj with rfl | rfl | rfl <;> exact ⟨_, _, rfl, by decide⟩

/-- A joiner begins with no character of a word. -/
theorem endsWord_of_joiner {j : Text} (hj : j ∈ joiners) (t : Text) : (j ++ t).endsWord = true := by
  simp only [joiners, List.mem_cons, List.not_mem_nil, or_false] at hj
  have hmarks : isWordChar ',' = false ∧ isWordChar ' ' = false := by decide +kernel
  rcases hj with rfl | rfl | rfl <;> simp [Text.endsWord, hmarks]

/-- The places of a list are put down after the end of a word. -/
theorem endsWord_text {ps : List (Text × Text)} (h : ∀ p ∈ ps, p.1 ∈ joiners) {v : Text} (hv : v.endsWord = true) :
    (PlaceList.text ps ++ v).endsWord = true := by
  cases ps with
  | nil => exact hv
  | cons p ps =>
    rw [PlaceList.text, List.flatMap_cons, List.append_assoc, List.append_assoc]
    exact endsWord_of_joiner (h p List.mem_cons_self) _

/-- **Locations that are joined make up a list.** -/
theorem isList_of_locations {first v : Text} {ps : List (Text × Text)} (hfirst : IsLocation first [])
    (hps : ∀ p ∈ ps, p.1 ∈ joiners ∧ IsLocation p.2 []) (hv : v.endsWord = true) :
    IsList (first ++ PlaceList.text ps) v := by
  refine .mk (hfirst.extend (endsWord_text (fun p hp => (hps p hp).1) hv)) ?_
  induction ps with
  | nil => exact .none v
  | cons p ps ih =>
    obtain ⟨⟨hjoiner, hplace⟩, hps⟩ := List.forall_mem_cons.mp hps
    rw [PlaceList.text, List.flatMap_cons]
    exact .more (.mk (isJoint_of_joiner hjoiner) (hplace.extend (endsWord_text (fun p hp => (hps p hp).1) hv))) (ih hps)

/-- The placeholder is no location. -/
theorem location_placeholder {l : Text} (hl : isPlaceholder l = true) (v : Text) : location (l ++ v) = [] := by
  by_contra hne
  have hnone : word "tk" (l ++ v) = [] := location_begins.word_eq_nil (by decide) (by decide) hne
  have hmem : v ∈ word "tk" (l ++ v) := (Accepts.word "tk").mem.mpr (isPlaceholder_iff.mp hl)
  rw [hnone] at hmem
  cases hmem

theorem not_blank_placeholder {l : Text} (hl : isPlaceholder l = true) (v : Text) : ¬(l ++ v).StartsIn isBlank := by
  obtain _ | ⟨hc, -⟩ := isPlaceholder_iff.mp hl
  rintro ⟨_, _, hcons, hblank⟩
  rw [← (List.cons.inj hcons).1, isBlank_of_sameLetter rfl (by decide) hc] at hblank
  cases hblank

/-- A list does not go on at its end or at the placeholder. -/
theorem not_goesOn {ps : List (Text × Text)} (h : ∀ p ∈ ps.head?, p.1 ∈ joiners ∧ isPlaceholder p.2 = true) :
    ¬GoesOn (PlaceList.text ps ++ ";") := by
  cases ps with
  | nil =>
    rintro (⟨c, rest, hcons, hc⟩ | hne)
    · obtain ⟨rfl, -⟩ := List.cons.inj hcons
      revert hc
      decide
    · revert hne
      decide +kernel
  | cons p ps =>
    obtain ⟨hjoiner, hplaceholder⟩ := h p rfl
    rw [PlaceList.text, List.flatMap_cons, List.append_assoc, List.append_assoc]
    rintro (hs | hne)
    · exact hs.not (fun c => isOneOf_apart (by decide)) (goesOnIn_of_joiner hjoiner _)
    · -- Of the ways to take the joiner only the longest could be gone on from, and no location comes after it.
      obtain ⟨rs, hrs⟩ := joint_leads.first (accepts_joint.mem.mpr (isJoint_of_joiner hjoiner))
        (not_blank_placeholder hplaceholder (ps.flatMap (fun p => p.1 ++ p.2) ++ ";"))
      rw [joint_leads.next_eq (fun s => location_refuses_blank) hrs] at hne
      exact hne (location_placeholder hplaceholder _)

/-- The placeholder is taken alone. -/
theorem core_placeholder {l v : Text} (hl : isPlaceholder l = true) (hv : v.endsWord = true) :
    ∃ rs, core (l ++ v) = v :: rs := by
  have hspells := isPlaceholder_iff.mp hl
  have hmem : v ∈ ((word placeholder).next (ahead Text.endsWord)) (l ++ v) :=
    ((Accepts.word placeholder).next Accepts.ahead).mem.mpr ⟨l, [], (List.append_nil l).symm, hspells, rfl, hv⟩
  have hlead : Leads ((word placeholder).next (ahead Text.endsWord)) fun _ => False := (Leads.word _).once_next .ahead
  obtain ⟨rs, hrs⟩ := hlead.first hmem id
  exact ⟨rs ++ locations (l ++ v), by rw [core, Recogniser.or, hrs, List.cons_append]⟩

/-- Locations are taken up to the end of the list or the placeholder. -/
theorem core_locations {u v : Text} (hu : IsList u v) (hv : ¬GoesOn v) : ∃ rs, core (u ++ v) = v :: rs :=
  core_leads.first (List.mem_append_right _ (accepts_list.mem.mpr hu)) hv

/-- **A clause takes after an "at" what it takes without it.** -/
theorem clause_led {lead at_ t : Text} (hlead : lead.blank = true) (hat : IsLeadingAt at_) (ht : core t ≠ []) :
    clause (lead ++ (at_ ++ t)) = core t := by
  obtain ⟨rs, hrs⟩ := leadingAt_leads.first (accepts_leadingAt.mem.mpr hat) ht
  have hled : ledCore (at_ ++ t) = core t := leadingAt_leads.next_eq (fun _ hs => hs) hrs
  have hstart : (at_ ++ t).trimStart = at_ ++ t := by
    obtain ⟨c, rest, hcons, hc⟩ := ledCore_begins (at_ ++ t) (hled ▸ ht)
    rw [hcons, Text.trimStart_cons (by simpa using hc)]
  have hplace : place (lead ++ (at_ ++ t)) = core t := by
    rw [place, ← core, ← ledCore, blanks_next ledCore_begins (fun c hc => by simpa using hc),
      Text.trimStart_append hlead, hstart, hled]
  rw [clause, Recogniser.or, bareAt_eq_nil (hplace ▸ ht), List.append_nil, hplace]

theorem PlaceList.text_append (ps qs : List (Text × Text)) : text (ps ++ qs) = text ps ++ text qs := List.flatMap_append

/-- The part of a list that is taken ends in no blank. -/
theorem PlaceList.endsUnblank (L : PlaceList) : EndsUnblank (L.first ++ text L.taken) := by
  have hplaces : ∀ p ∈ L.taken, IsPlace p.2 := fun p hp =>
    (L.further_isPlace p (L.taken_append_left ▸ List.mem_append_left _ hp)).2
  rcases List.eq_nil_or_concat L.taken with hnil | ⟨ps, p, hps⟩
  · rw [hnil]
    simpa [text] using L.first_isPlace.endsUnblank
  · rw [hps] at hplaces ⊢
    have hp : IsPlace p.2 := hplaces p (by simp)
    have htext : text (ps ++ [p]) = text ps ++ p.1 ++ p.2 := by simp [text]
    rw [List.concat_eq_append, htext]
    exact (hp.endsUnblank.prepend _).prepend _

/-- A list holds no brackets. -/
theorem PlaceList.unbracketed {L : PlaceList} {ps : List (Text × Text)} (hps : ∀ p ∈ ps, p ∈ L.further) :
    ∀ c ∈ text ps, isBracket c = false := by
  have hjoiners : (joiners.all fun j => j.all fun c => !isBracket c) = true := by decide
  intro c hc
  obtain ⟨p, hp, hc⟩ := List.mem_flatMap.mp hc
  obtain ⟨hjoiner, hplace⟩ := L.further_isPlace p (hps p hp)
  rcases List.mem_append.mp hc with hc | hc
  · simpa using List.all_eq_true.mp (List.all_eq_true.mp hjoiners _ hjoiner) c hc
  · exact hplace.unbracketed c hc

/-- Of a list the core of a clause is taken up to what is left. -/
theorem core_written (L : PlaceList) : ∃ rs, core (L.written ++ ";") = (PlaceList.text L.left ++ ";") :: rs := by
  have hsemicolon : Text.endsWord ";" = true := by decide +kernel
  have hwritten : L.written = L.first ++ PlaceList.text L.taken ++ PlaceList.text L.left := by
    rw [List.append_assoc, ← PlaceList.text_append, L.taken_append_left, PlaceList.written]
  have hjoiners : ∀ p ∈ L.left, p.1 ∈ joiners := fun p hp =>
    (L.further_isPlace p (L.taken_append_left ▸ List.mem_append_right _ hp)).1
  rw [hwritten, List.append_assoc]
  by_cases hfirst : isPlaceholder L.first = true
  · have htaken : L.taken = [] := if_pos hfirst
    rw [htaken]
    simpa [PlaceList.text] using core_placeholder hfirst (endsWord_text hjoiners hsemicolon)
  · have htaken : L.taken = L.further.takeWhile fun p => !isPlaceholder p.2 := if_neg hfirst
    have hleft : L.left = L.further.dropWhile fun p => !isPlaceholder p.2 := if_neg hfirst
    have hlocations : ∀ p ∈ L.taken, p.1 ∈ joiners ∧ IsLocation p.2 [] := by
      intro p hp
      rw [htaken] at hp
      obtain ⟨hjoiner, hplace⟩ := L.further_isPlace p (List.takeWhile_subset _ hp)
      have hnot := List.mem_takeWhile_imp hp
      exact ⟨hjoiner, hplace.resolve_right (by simpa using hnot)⟩
    have hstop : ∀ p ∈ L.left.head?, p.1 ∈ joiners ∧ isPlaceholder p.2 = true := by
      intro p hp
      have hnot := List.head?_dropWhile_not (fun p => !isPlaceholder p.2) L.further
      rw [← hleft, hp] at hnot
      exact ⟨hjoiners p (List.mem_of_head? hp), by simpa using hnot⟩
    exact core_locations (isList_of_locations (L.first_isPlace.resolve_right hfirst) hlocations
      (endsWord_text hjoiners hsemicolon)) (not_goesOn hstop)

/-- **What a clause takes of a list of places**: the locations up to the first placeholder, or the placeholder alone. -/
theorem scan_list (L : PlaceList) {lead at_ : Text} (hlead : lead.blank = true) (hat : IsLeadingAt at_) :
    scan (lead ++ (at_ ++ (L.written ++ ";"))) =
      (some (at_ ++ (L.first ++ PlaceList.text L.taken)), PlaceList.text L.left ++ ";") := by
  obtain ⟨rs, hrs⟩ := core_written L
  have hclause := clause_led hlead hat (hrs ▸ List.cons_ne_nil _ _)
  rw [hrs] at hclause
  obtain ⟨u, hu, -, hscan⟩ := scan_of_cons hclause
  obtain rfl : u = lead ++ (at_ ++ (L.first ++ PlaceList.text L.taken)) := by
    rw [PlaceList.written, ← L.taken_append_left, PlaceList.text_append] at hu
    simp only [← List.append_assoc] at hu
    simpa only [List.append_assoc] using (List.append_cancel_right (List.append_cancel_right hu)).symm
  rw [hscan]
  -- Nothing is trimmed but the blanks before the clause.
  have hstart : (at_ ++ (L.first ++ PlaceList.text L.taken)).trimStart = at_ ++ (L.first ++ PlaceList.text L.taken) := by
    cases hat with
    | none =>
      obtain ⟨c, v, hcons, hc, -⟩ := L.first_isPlace.opens.append (PlaceList.text L.taken)
      rw [List.nil_append, hcons, Text.trimStart_cons hc]
    | written hv _ _ =>
      obtain _ | ⟨ha, -⟩ := hv
      exact Text.trimStart_cons (isBlank_of_sameLetter rfl (by decide) ha) _
  rw [Text.trim, Text.trimStart_append hlead, hstart, (L.endsUnblank.prepend at_).trimEnd]

end Footcite.Pincite
