import Footcite.Pincite.Basic
import Footcite.Proofs.Pincite.Phrases
import Footcite.Proofs.Text.Blanks
import Footcite.Proofs.Text.Letters

/-!
# Pincites that name a place

A pincite that is found in a note is a bare "at", or it names a place (`Pincite.IsClause.takes`): blanks, an "at"
perhaps, and then something that does not begin with an "at" again (`Pincite.Opens`). So it is refused as a bare "at",
or a clean pincite is left of it (`Pincite.Found.cleaned`), in which there is nothing more to clean
(`Pincite.Cleaned.clean`).
-/

namespace Footcite

namespace Pincite

open Recogniser

/-! ## Places -/

/-- An "at", in whatever case. -/
def IsAt (u : Text) : Prop := List.Forall₂ (fun l c => sameLetter l c = true) "at".toList u

/-- **What a place opens with**: no blank, and no "at". -/
def Opens (u : Text) : Prop :=
  ∃ c v, u = c :: v ∧ isBlank c = false ∧
    (sameLetter 'a' c = true → ∃ d w, v = d :: w ∧ isBlank d = false ∧ sameLetter 't' d = false)

theorem Opens.append {u : Text} (h : Opens u) (v : Text) : Opens (u ++ v) := by
  obtain ⟨c, w, rfl, hc, ha⟩ := h
  refine ⟨c, w ++ v, rfl, hc, fun hca => ?_⟩
  obtain ⟨d, w', rfl, hd⟩ := ha hca
  exact ⟨d, w' ++ v, rfl, hd⟩

/-- A word that does not begin with an a. -/
theorem opens_of_spells {l : Char} {ls u : Text} (hl : Apart l 'a') (hblank : isBlank l = false)
    (hu : Text.Spells (l :: ls) u) : Opens u := by
  obtain _ | ⟨hc, -⟩ := hu
  refine ⟨_, _, rfl, isBlank_of_sameLetter hl.1 hblank hc, fun ha => ?_⟩
  rw [hl.sameLetter hc] at ha
  cases ha

/-! ## Clauses -/

section

variable {u v : Text}

theorem IsNumeral.opens (h : IsNumeral u v) : Opens u := by
  obtain @⟨digits, letter, _, hne, hdigits, -⟩ := h
  obtain ⟨c, rest, rfl⟩ := List.exists_cons_of_ne_nil hne
  have hc : isDecimalDigit c = true := List.all_eq_true.mp hdigits c List.mem_cons_self
  refine Opens.append ⟨c, rest, rfl, isBlank_of_isDecimalDigit hc, fun ha => ?_⟩ letter
  rw [sameLetter_of_isDecimalDigit rfl (by decide) hc] at ha
  cases ha

theorem IsSpan.opens (h : IsSpan u v) : Opens u := by
  have hnumber {u v : Text} : IsNumber u v → Opens u
    | .mk hu _ => hu.opens.append _
  cases h with
  | single hu => exact hnumber hu
  | range hu => exact (hnumber hu).append _

theorem IsNoteReference.opens (h : IsNoteReference u v) : Opens u := by
  obtain ⟨hsign | hsign, -⟩ := h <;>
    exact (opens_of_spells (by decide) (by decide) hsign).append _

/-- One label begins with an a, but goes on with an r. -/
theorem opens_of_label {letters l : Text} (hletters : letters ∈ labels) (hl : Text.Spells letters l) : Opens l := by
  by_cases hart : letters = "art."
  · subst hart
    obtain _ | ⟨ha, _ | ⟨hr, -⟩⟩ := hl
    refine ⟨_, _, rfl, isBlank_of_sameLetter rfl (by decide) ha, fun _ => ⟨_, _, rfl, ?_, ?_⟩⟩
    · exact isBlank_of_sameLetter rfl (by decide) hr
    · exact Apart.sameLetter (l := 'r') (by decide) hr
  · have hothers : ∀ letters ∈ labels, letters ≠ "art." →
        letters.head?.any (fun l => decide (Apart l 'a') && !isBlank l) = true := by decide
    have hfirst := hothers letters hletters hart
    cases letters with
    | nil => cases hfirst
    | cons l ls =>
      have hfirst : (decide (Apart l 'a') && !isBlank l) = true := hfirst
      rw [Bool.and_eq_true, decide_eq_true_eq, Bool.not_eq_true'] at hfirst
      exact opens_of_spells hfirst.1 hfirst.2 hl

theorem IsLocation.opens (h : IsLocation u v) : Opens u := by
  cases h with
  | span hlabel hu _ =>
    cases hlabel with
    | none => exact hu.opens.append _
    | label hletters hl _ => exact ((opens_of_label hletters hl).append _).append _
  | note hu => exact hu.opens
  | preamble hu => exact opens_of_spells (by decide) (by decide) hu

/-- **What a clause takes**: blanks and a bare "at", or blanks, an "at" with blanks after it perhaps, and what opens a
place. -/
inductive Clause : Text → Prop
  | bareAt {lead v : Text} : lead.blank = true → IsAt v → Clause (lead ++ v)
  | place {lead at_ core : Text} : lead.blank = true → IsLeadingAt at_ → Opens core → Clause (lead ++ (at_ ++ core))

theorem IsClause.takes (h : IsClause u v) : Clause u := by
  cases h with
  | placeholder hlead hat hu _ => exact .place hlead hat (opens_of_spells (by decide) (by decide) hu)
  | locations hlead hat hu =>
    obtain ⟨hu, -⟩ := hu
    exact .place hlead hat (hu.opens.append _)
  | bareAt hlead hu _ => exact .bareAt hlead hu

end

/-! ## The "at" of a clause -/

/-- An "at" is two letters. -/
theorem IsAt.letters {u : Text} (h : IsAt u) :
    ∃ a t, u = [a, t] ∧ sameLetter 'a' a = true ∧ sameLetter 't' t = true := by
  rcases h with _ | ⟨ha, _ | ⟨ht, ⟨⟩⟩⟩
  exact ⟨_, _, rfl, ha, ht⟩

theorem IsAt.length {u : Text} (h : IsAt u) : u.length = 2 := by
  obtain ⟨a, t, rfl, -, -⟩ := h.letters
  rfl

/-- An "at" has no blanks around it. -/
theorem IsAt.trim {u : Text} (h : IsAt u) {lead : Text} (hlead : lead.blank = true) : (lead ++ u).trim = u := by
  obtain ⟨a, t, rfl, ha, ht⟩ := h.letters
  have ha : isBlank a = false := isBlank_of_sameLetter rfl (by decide) ha
  have ht : isBlank t = false := isBlank_of_sameLetter rfl (by decide) ht
  rw [Text.trim, Text.trimStart_append hlead, Text.trimStart_cons ha]
  simp [Text.trimEnd, Text.dropEndWhile, ht]

theorem IsAt.lower {u : Text} (h : IsAt u) : u.lower = "at" := by
  obtain ⟨a, t, rfl, ha, ht⟩ := h.letters
  have ha : a.toLower = 'a' := toLower_of_sameLetter rfl ha
  have ht : t.toLower = 't' := toLower_of_sameLetter rfl ht
  simp [Text.lower, ha, ht]

theorem isAt_of_lower {u : Text} (h : u.lower = "at") : IsAt u := by
  obtain ⟨a, rest, rfl, ha, hrest⟩ := List.map_eq_cons_iff.mp h
  obtain ⟨t, rest, rfl, ht, hrest⟩ := List.map_eq_cons_iff.mp hrest
  rw [List.map_eq_nil_iff] at hrest
  subst hrest
  exact .cons (by simp [sameLetter, ha]) (.cons (by simp [sameLetter, ht]) .nil)

/-- What opens a place holds more than blanks. -/
theorem Opens.blank {core : Text} (h : Opens core) : core.blank = false := by
  obtain ⟨c, v, rfl, hc, -⟩ := h
  simp [Text.blank, hc]

/-- What opens a place has no "at" in front. -/
theorem Opens.not_isAt {core : Text} (h : Opens core) {u v : Text} (hcore : core = u ++ v) : ¬IsAt u := by
  intro hu
  obtain ⟨a, t, rfl, ha, ht⟩ := hu.letters
  obtain ⟨c, w, rfl, -, hopens⟩ := h
  obtain ⟨rfl, rfl⟩ := List.cons.inj hcore
  obtain ⟨d, w, hdw, -, hdt⟩ := hopens ha
  obtain ⟨rfl, -⟩ := List.cons.inj hdw
  rw [ht] at hdt
  cases hdt

/-- What begins a place is no blank. -/
theorem Opens.trimStart {core : Text} (h : Opens core) : core.trimStart = core := by
  obtain ⟨c, v, rfl, hc, -⟩ := h
  exact Text.trimStart_cons hc v

/-- The blanks at its end are no matter to what opens a place. -/
theorem Opens.of_append {core trail : Text} (h : Opens (core ++ trail)) (htrail : trail.blank = true) : Opens core := by
  have htrail : ∀ d ∈ trail, isBlank d = true := List.all_eq_true.mp htrail
  obtain ⟨c, v, hcv, hc, hopens⟩ := h
  cases core with
  | nil =>
    have hcv : trail = c :: v := hcv
    rw [htrail c (hcv ▸ List.mem_cons_self)] at hc
    cases hc
  | cons c' u =>
    obtain ⟨rfl, rfl⟩ := List.cons.inj hcv
    refine ⟨c', u, rfl, hc, fun ha => ?_⟩
    obtain ⟨d, w, hdw, hd, hdt⟩ := hopens ha
    cases u with
    | nil =>
      have hdw : trail = d :: w := hdw
      rw [htrail d (hdw ▸ List.mem_cons_self)] at hd
      cases hd
    | cons d' u =>
      obtain ⟨rfl, -⟩ := List.cons.inj hdw
      exact ⟨d', u, rfl, hd, hdt⟩

theorem Opens.trim {core : Text} (h : Opens core) : Opens core.trim := by
  obtain ⟨trail, hcore, htrail⟩ := Text.exists_dropEndWhile isBlank core
  have htrim : core.trim = core.dropEndWhile isBlank := by
    rw [Text.trim, h.trimStart]
    rfl
  rw [htrim]
  exact .of_append (hcore ▸ h) htrail

/-! ## What is dropped -/

theorem accepts_openingAt : Accepts openingAt fun u _ => ∃ v gap, u = v ++ gap ∧ IsAt v ∧ gap ≠ [] ∧ gap.blank = true :=
  (Accepts.word "at").next Accepts.gap

/-- What is dropped in front is an "at" with blanks after it, or nothing. -/
theorem dropAt_cases (t : Text) :
    dropAt t = t ∨ ∃ v gap, t = v ++ gap ++ dropAt t ∧ IsAt v ∧ gap ≠ [] ∧ gap.blank = true := by
  unfold dropAt
  cases h : openingAt t with
  | nil => exact .inl rfl
  | cons r others =>
    obtain ⟨_, ht, v, gap, rfl, hgap⟩ := (accepts_openingAt t r).mp (by simp [h])
    exact .inr ⟨v, gap, ht, hgap⟩

/-- An "at" with blanks after it is dropped. -/
theorem trim_dropAt {v gap : Text} (hv : IsAt v) (hne : gap ≠ []) (hgap : gap.blank = true) (core : Text) :
    (dropAt (v ++ gap ++ core)).trim = core.trim := by
  have hmem : core ∈ openingAt (v ++ gap ++ core) :=
    (accepts_openingAt _ core).mpr ⟨_, rfl, v, gap, rfl, hv, hne, hgap⟩
  unfold dropAt
  cases h : openingAt (v ++ gap ++ core) with
  | nil =>
    rw [h] at hmem
    cases hmem
  | cons r others =>
    have hr : r ∈ openingAt (v ++ gap ++ core) := h ▸ List.mem_cons_self
    obtain ⟨_, ht, v', gap', rfl, hv', -, hgap'⟩ := (accepts_openingAt _ r).mp hr
    rw [List.append_assoc, List.append_assoc] at ht
    obtain ⟨-, ht⟩ := List.append_inj ht (hv.length.trans hv'.length.symm)
    have hstart := congrArg Text.trimStart ht
    rw [Text.trimStart_append hgap, Text.trimStart_append hgap'] at hstart
    rw [List.head?_cons, Option.getD_some, Text.trim, ← hstart, Text.trim]

/-! ## Clean pincites -/

/-- **A clean pincite**: it is not empty, has no blanks at its ends, is not "at" in whatever case, and does not begin
with an "at" before a blank. -/
structure Cleaned (q : Text) : Prop where
  ne_nil : q ≠ []
  trim : q.trim = q
  not_at : q.lower ≠ "at"
  not_leadingAt : ∀ (v : Text) (c : Char) (w : Text), q = v ++ c :: w → v.lower = "at" → isBlank c = false

/-- What opens a place is clean, once it is trimmed. -/
theorem Opens.cleaned {core : Text} (h : Opens core) : Cleaned core.trim where
  ne_nil := by
    obtain ⟨c, v, htrim, -⟩ := h.trim
    rw [htrim]
    exact List.cons_ne_nil c v
  trim := core.trim_trim
  not_at hlower := h.trim.not_isAt (List.append_nil _).symm (isAt_of_lower hlower)
  not_leadingAt _ _ _ hcore hlower := absurd (isAt_of_lower hlower) (h.trim.not_isAt hcore)

/-- A text after blanks and an "at", if they are there, is trimmed together with the "at". -/
theorem trim_led {lead at_ core : Text} (hlead : lead.blank = true) (hat : IsLeadingAt at_)
    (hblank : core.blank = false) (hcore : core.trimStart = core) :
    (lead ++ (at_ ++ core)).trim = at_ ++ core.trim := by
  have hstart : (at_ ++ core).trimStart = at_ ++ core := by
    cases hat with
    | none => exact hcore
    | written hv =>
      obtain ⟨a, t, rfl, ha, -⟩ := IsAt.letters hv
      exact Text.trimStart_cons (isBlank_of_sameLetter rfl (by decide) ha) _
  rw [Text.trim, Text.trimStart_append hlead, hstart, Text.trimEnd_append at_ hblank, Text.trim, hcore]

namespace Cleaned

variable {q : Text}

theorem blank (h : Cleaned q) : q.blank = false := by
  by_contra hblank
  rw [Bool.not_eq_false, ← Text.trim_eq_nil, h.trim] at hblank
  exact h.ne_nil hblank

/-- Nothing is dropped of a clean pincite. -/
theorem dropAt_eq (h : Cleaned q) : dropAt q = q := by
  rcases dropAt_cases q with hdrop | ⟨v, gap, hq, hv, hne, hgap⟩
  · exact hdrop
  · obtain ⟨c, gap, rfl⟩ := List.exists_cons_of_ne_nil hne
    rw [List.append_assoc] at hq
    have hc : isBlank c = false := h.not_leadingAt v c _ hq hv.lower
    rw [List.all_eq_true.mp hgap c List.mem_cons_self] at hc
    cases hc

/-- **A clean pincite is found again**, also behind an "at". -/
theorem clean_led (h : Cleaned q) {at_ : Text} (hat : IsLeadingAt at_) (id : Text) :
    clean id (some (at_ ++ q)) = .ok (some q) := by
  have htrim : (at_ ++ q).trim = at_ ++ q := by
    have hlead : Text.blank [] = true := rfl
    have hstart : q.trimStart = q := by rw [← h.trim, Text.trimStart_trim]
    simpa [h.trim] using trim_led hlead hat h.blank hstart
  have hne : at_ ++ q ≠ [] := fun hnil => h.ne_nil (List.append_eq_nil_iff.mp hnil).2
  have hdrop : (dropAt (at_ ++ q)).trim = q := by
    cases hat with
    | none => exact (congrArg Text.trim h.dropAt_eq).trans h.trim
    | written hv hgap hblank => rw [trim_dropAt hv hgap hblank, h.trim]
  have hbare : (at_ ++ q).lower ≠ "at" := by
    cases hat with
    | none => exact h.not_at
    | @written v gap hv hgap _ =>
      intro hlower
      have hlength := congrArg List.length hlower
      have hgap := List.length_pos_iff.mpr hgap
      rw [Text.lower, List.length_map, List.length_append, List.length_append, IsAt.length hv] at hlength
      have : "at".toList.length = 2 := rfl
      omega
  rw [clean, htrim, if_neg hbare, normalize, Text.trimmed?, htrim]
  simp [hne, hdrop]

theorem clean (h : Cleaned q) (id : Text) : Pincite.clean id (some q) = .ok (some q) := h.clean_led .none id

end Cleaned

/-! ## Cleaning twice -/

/-- **The pincite is one that was found in a note**, or there is none. -/
def Found (pincite : Option Text) : Prop := ∃ t, (scan t).1 = pincite

/-- What was found is a clause without the blanks around it. -/
theorem Found.clause {p : Text} (h : Found (some p)) : ∃ u, Clause u ∧ u.trim = p := by
  obtain ⟨t, ht⟩ := h
  unfold scan at ht
  cases hrests : Pincite.clause t with
  | nil =>
    rw [hrests] at ht
    cases ht
  | cons rest others =>
    rw [hrests] at ht
    obtain ⟨u, rfl, hu⟩ := (accepts_clause t rest).mp (by simp [hrests])
    simp only [List.length_append, Nat.add_sub_cancel, List.take_left] at ht
    exact ⟨u, hu.takes, (Text.trimmed?_eq_some ht).symm⟩

/-- **What was found is a bare "at", or a clean pincite** behind an "at" with blanks after it perhaps. -/
theorem Found.cleaned {p : Text} (h : Found (some p)) :
    IsAt p ∨ ∃ at_ q, p = at_ ++ q ∧ IsLeadingAt at_ ∧ Cleaned q := by
  obtain ⟨u, hu, rfl⟩ := h.clause
  cases hu with
  | bareAt hlead hv =>
    rw [hv.trim hlead]
    exact .inl hv
  | place hlead hat hcore => exact .inr ⟨_, _, trim_led hlead hat hcore.blank hcore.trimStart, hat, hcore.cleaned⟩

/-- A bare "at" is refused. -/
theorem IsAt.clean {p : Text} (h : IsAt p) (id : Text) :
    Pincite.clean id (some p) = .error (.emptyPincite p id none) := by
  have htrim : p.trim = p := h.trim (show Text.blank [] = true from rfl)
  rw [Pincite.clean, htrim, if_pos h.lower]

/-- **A pincite that is not refused stays so** when it is cleaned: what is left of it is no bare "at". -/
theorem clean_of_clean {raw pin : Option Text} {id : Text} (hraw : Found raw) (h : clean id raw = .ok pin) :
    ∃ pin', clean id pin = .ok pin' := by
  cases raw with
  | none =>
    cases h
    exact ⟨none, rfl⟩
  | some p =>
    rcases hraw.cleaned with hat | ⟨at_, q, rfl, hat, hq⟩
    · rw [hat.clean] at h
      cases h
    · rw [hq.clean_led hat] at h
      cases h
      exact ⟨_, hq.clean id⟩

end Pincite

end Footcite
