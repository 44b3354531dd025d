import Footcite.Citation.Sentence
import Footcite.Proofs.Text.Blanks
import Footcite.Proofs.Text.Letters
import Footcite.Proofs.Text.Phrases

/-!
# Citations after a signal

A text ends in a signal when the signal, in either case, begins it or comes after a blank or an opening parenthesis,
with nothing after it but asterisks, a comma and blanks (`Text.endsInSignal_iff`). A citation after such a text opens no
sentence, though most signals end in a full stop. That is so of a signal that is emphasised with asterisks, but not of
one in underscores: they are passed over when the end of a sentence is looked for, but hide the signal
(`Segment.opensSentence_after_signal`).
-/

namespace Footcite

/-- One of several words. -/
theorem Recogniser.Accepts.firstOf_words (words : List Text) :
    Accepts (firstOf (words.map Recogniser.word)) fun u _ => ∃ w ∈ words, Text.Spells w u := by
  intro t r
  rw [Recogniser.firstOf, List.flatMap_map, List.mem_flatMap]
  constructor
  · rintro ⟨w, hw, hr⟩
    obtain ⟨u, rfl, hu⟩ := (Accepts.word w t r).mp hr
    exact ⟨u, rfl, w, hw, hu⟩
  · rintro ⟨u, rfl, w, hw, hu⟩
    exact ⟨w, hw, (Accepts.word w _ r).mpr ⟨u, rfl, hu⟩⟩

namespace Text

/-! ## Texts that end in a signal -/

/-- **A signal as it stands at the end of a text**: in either case, perhaps with asterisks on its sides, and followed by
a comma or none and by blanks. -/
inductive IsSignal : Text → Prop
  | mk {opening signal written closing comma trail : Text} : opening.all "*".toList.contains = true →
      signal ∈ signals → Spells signal written → closing.all "*".toList.contains = true →
      comma = [] ∨ comma = [','] → trail.blank = true →
      IsSignal (opening ++ (written ++ (closing ++ (comma ++ trail))))

/-- A signal may come after such a text: it is empty, or ends in a blank or an opening parenthesis. -/
def LeavesGap (t : Text) : Prop := ∀ c, t.getLast? = some c → isBlank c = true ∨ c = '('

open Recogniser in
theorem accepts_signal : Accepts signal fun u _ => IsSignal u := by
  have hcomma : Accepts (oneOf ",").optional fun u _ => u = [] ∨ u = [','] :=
    Accepts.one.optional.congr fun u v => by simp [or_comm]
  refine (Accepts.many_one.next ((Accepts.firstOf_words signals).next
    (Accepts.many_one.next (hcomma.next Accepts.blanks)))).congr fun u v => ⟨?_, ?_⟩
  · rintro ⟨opening, _, rfl, hopening, written, _, rfl, ⟨signal, hsignal, hwritten⟩, closing, _, rfl, hclosing,
      comma, trail, rfl, hcomma, htrail⟩
    exact .mk hopening hsignal hwritten hclosing hcomma htrail
  · rintro ⟨hopening, hsignal, hwritten, hclosing, hcomma, htrail⟩
    exact ⟨_, _, rfl, hopening, _, _, rfl, ⟨_, hsignal, hwritten⟩, _, _, rfl, hclosing, _, _, rfl, hcomma, htrail⟩

theorem mem_afterGaps {t u : Text} :
    u ∈ afterGaps t ↔ ∃ front c, t = front ++ c :: u ∧ (isBlank c = true ∨ c = '(') := by
  induction t with
  | nil => simp [afterGaps]
  | cons d t ih =>
    have hrest : (∃ front c, t = front ++ c :: u ∧ (isBlank c = true ∨ c = '(')) →
        ∃ front c, d :: t = front ++ c :: u ∧ (isBlank c = true ∨ c = '(') := by
      rintro ⟨front, c, rfl, hc⟩
      exact ⟨d :: front, c, rfl, hc⟩
    simp only [afterGaps, Bool.or_eq_true, decide_eq_true_eq]
    constructor
    · intro hu
      split at hu
      · next hd =>
        rcases List.mem_cons.mp hu with rfl | hu
        · exact ⟨[], d, rfl, hd⟩
        · exact hrest (ih.mp hu)
      · exact hrest (ih.mp hu)
    · rintro ⟨front, c, ht, hc⟩
      cases front with
      | nil =>
        obtain ⟨rfl, rfl⟩ := List.cons.inj ht
        rw [if_pos hc]
        exact List.mem_cons_self
      | cons e front =>
        obtain ⟨rfl, rfl⟩ := List.cons.inj ht
        have hu := ih.mpr ⟨front, c, rfl, hc⟩
        split
        · exact List.mem_cons_of_mem _ hu
        · exact hu

/-- **A text ends in a signal** that begins it or comes after a blank or an opening parenthesis. -/
theorem endsInSignal_iff {t : Text} :
    t.endsInSignal = true ↔ ∃ front u, t = front ++ u ∧ front.LeavesGap ∧ IsSignal u := by
  have hsignal (u : Text) : (signal u).any List.isEmpty = true ↔ IsSignal u := by
    simp [accepts_signal u []]
  simp only [endsInSignal, List.any_eq_true (l := t :: afterGaps t), hsignal]
  constructor
  · rintro ⟨u, hu, hs⟩
    rcases List.mem_cons.mp hu with rfl | hu
    · exact ⟨[], u, rfl, by simp [LeavesGap], hs⟩
    · obtain ⟨front, c, rfl, hc⟩ := mem_afterGaps.mp hu
      exact ⟨front ++ [c], u, by simp, by simpa [LeavesGap] using hc, hs⟩
  · rintro ⟨front, u, rfl, hfront, hs⟩
    refine ⟨u, ?_, hs⟩
    rcases List.eq_nil_or_concat front with rfl | ⟨front, c, rfl⟩
    · exact List.mem_cons_self
    · have hc := hfront c (by simp)
      exact List.mem_cons_of_mem _ (mem_afterGaps.mpr ⟨front, c, by simp, hc⟩)

/-! ## The letters of signals -/

/-- No signal is written with an underscore. -/
theorem IsSignal.not_underscore {u : Text} (h : IsSignal u) : '_' ∉ u := by
  obtain ⟨hopening, hsignal, hwritten, hclosing, hcomma, htrail⟩ := h
  have hletters : ∀ s ∈ signals, s.all (fun l => !sameLetter l '_') = true := by decide
  intro hmem
  simp only [List.mem_append] at hmem
  rcases hmem with hmem | hmem | hmem | hmem | hmem
  · have := List.all_eq_true.mp hopening _ hmem
    simp at this
  · obtain ⟨i, hi, hc⟩ := List.getElem_of_mem hmem
    have hi' := hwritten.length_eq ▸ hi
    have hl := hwritten.get hi' hi
    have hother := List.all_eq_true.mp (hletters _ hsignal) _ (List.getElem_mem hi')
    simp only [List.get_eq_getElem, hc] at hl
    rw [hl] at hother
    cases hother
  · have := List.all_eq_true.mp hclosing _ hmem
    simp at this
  · rcases hcomma with rfl | rfl <;> simp at hmem
  · have := List.all_eq_true.mp htrail _ hmem
    revert this
    decide

/-- **The last letter or sign of a signal** is no blank and none of the marks that may stand after a sentence, and it
ends a sentence exactly when the signal ends in a full stop. -/
theorem getLast?_of_spells {s written : Text} (hs : s ∈ signals) (hw : Spells s written) :
    ∃ c, written.getLast? = some c ∧ isBlank c = false ∧ isCloser c = false ∧
      (endsSentence c = true ↔ s.getLast? = some '.') := by
  have hplain : ∀ s ∈ signals, ∀ l, s.getLast? = some l →
      letterVariants.lookup l = none ∧ isBlank l = false ∧ "*_\"')”’".toList.any (sameLetter l) = false ∧
        (l ≠ '.' → ".!?".toList.any (sameLetter l) = false) := by
    intro s hs l hl
    have h := (by decide : ∀ s ∈ signals, s.getLast?.all (fun l => letterVariants.lookup l = none ∧
      isBlank l = false ∧ "*_\"')”’".toList.any (sameLetter l) = false ∧
        (l ≠ '.' → ".!?".toList.any (sameLetter l) = false)) = true) s hs
    rw [hl] at h
    exact of_decide_eq_true h
  have hlast : ∀ s ∈ signals, s.getLast?.isSome = true := by decide
  obtain ⟨l, hl⟩ := Option.isSome_iff_exists.mp (hlast s hs)
  obtain ⟨hlookup, hblank, hcloser, hstop⟩ := hplain s hs l hl
  obtain ⟨init, rfl⟩ := List.getLast?_eq_some_iff.mp hl
  obtain ⟨x, y, rfl, -, hy⟩ := spells_append.mp hw
  obtain ⟨c, v, hc, hv, rfl⟩ := List.forall₂_cons_left_iff.mp hy
  obtain rfl := List.forall₂_nil_left_iff.mp hv
  refine ⟨c, by simp, isBlank_of_sameLetter hlookup hblank hc, ?_, ?_⟩
  · by_contra hclose
    rw [Bool.not_eq_false] at hclose
    have hmem : c ∈ "*_\"')”’".toList := List.contains_iff_mem.mp hclose
    rw [List.any_eq_false] at hcloser
    exact hcloser c hmem hc
  · rw [hl, Option.some.injEq]
    constructor
    · intro hends
      by_contra hl
      have hmem : c ∈ ".!?".toList := by simpa [endsSentence, or_assoc] using hends
      have hnone := hstop hl
      rw [List.any_eq_false] at hnone
      exact hnone c hmem hc
    · rintro rfl
      have hdot : c = '.' := eq_of_toLower (by decide) (toLower_of_sameLetter hlookup hc)
      rw [hdot]
      rfl

theorem IsSignal.ne_nil {u : Text} (h : IsSignal u) : u ≠ [] := by
  obtain ⟨-, hsignal, hwritten, -, -, -⟩ := h
  obtain ⟨c, hc, -⟩ := getLast?_of_spells hsignal hwritten
  have hmem := List.mem_of_getLast? hc
  intro hnil
  simp only [List.append_eq_nil_iff] at hnil
  rw [hnil.2.1] at hmem
  cases hmem

/-! ## Sentences before a citation -/

/-- After a signal no sentence is over. -/
theorem closesSentence_of_signal {t : Text} (h : t.endsInSignal = true) : t.closesSentence = false := by
  rw [closesSentence, h, Bool.not_true, Bool.false_and]

/-- After a comma no sentence is over. -/
theorem closesSentence_of_comma {t : Text} (h : t.getLast? = some ',') : t.closesSentence = false := by
  have hdrop : t.dropEndWhile isCloser = t := dropEndWhile_of_getLast? h (by decide)
  rw [closesSentence, hdrop, h]
  exact Bool.and_false _

/-- A text that ends in an underscore ends in no signal. -/
theorem endsInSignal_of_underscore {t : Text} (h : t.getLast? = some '_') : t.endsInSignal = false := by
  by_contra hends
  rw [Bool.not_eq_false] at hends
  obtain ⟨front, u, rfl, -, hu⟩ := endsInSignal_iff.mp hends
  rw [List.getLast?_append_of_ne_nil _ hu.ne_nil] at h
  exact hu.not_underscore (List.mem_of_getLast? h)

/-- **After a signal in underscores** a sentence is over if the signal ends in a full stop. -/
theorem closesSentence_underscored {front s written : Text} {n : Nat} (hn : n ≠ 0) (hs : s ∈ signals)
    (hw : Spells s written) :
    (front ++ written ++ List.replicate n '_').closesSentence = true ↔ s.getLast? = some '.' := by
  obtain ⟨c, hc, -, hclose, hends⟩ := getLast?_of_spells hs hw
  have hunderscore : (front ++ written ++ List.replicate n '_').getLast? = some '_' := by
    simp [List.getLast?_append, List.getLast?_replicate, hn]
  have hmarks : (List.replicate n '_').all isCloser = true := by
    rw [List.all_eq_true]
    intro d hd
    rw [List.eq_of_mem_replicate hd]
    decide
  have hlast : (front ++ written).getLast? = some c := by rw [List.getLast?_append, hc, Option.some_or]
  rw [closesSentence, endsInSignal_of_underscore hunderscore, dropEndWhile_append hmarks,
    dropEndWhile_of_getLast? hlast hclose, hlast]
  simpa using hends

/-- **Whether a sentence is over after a signal**, with the same marks of emphasis on both its sides. -/
theorem closesSentence_after_signal {front s written comma : Text} {mark : Char} {n : Nat} (hfront : front.LeavesGap)
    (hmark : mark = '*' ∨ mark = '_') (hs : s ∈ signals) (hw : Spells s written) (hcomma : comma = [] ∨ comma = [',']) :
    (front ++ List.replicate n mark ++ written ++ List.replicate n mark ++ comma).closesSentence = true ↔
      mark = '_' ∧ n ≠ 0 ∧ s.getLast? = some '.' ∧ comma = [] := by
  rcases hcomma with rfl | rfl
  · by_cases hplain : mark = '*' ∨ n = 0
    · -- Asterisks are part of the signal, so it is found.
      have hstars : (List.replicate n mark).all "*".toList.contains = true := by
        rw [List.all_eq_true]
        intro d hd
        obtain ⟨hn, rfl⟩ := List.mem_replicate.mp hd
        rw [hplain.resolve_right hn]
        decide
      have hsignal :
          (front ++ List.replicate n mark ++ written ++ List.replicate n mark ++ []).endsInSignal = true := by
        have hempty : blank [] = true := rfl
        refine endsInSignal_iff.mpr ⟨front, _, ?_, hfront, .mk hstars hs hw hstars (.inl rfl) hempty⟩
        simp
      have hnot : ¬(mark = '_' ∧ n ≠ 0 ∧ s.getLast? = some '.' ∧ ([] : Text) = []) := by
        rintro ⟨rfl, hn, -, -⟩
        rcases hplain with h | h
        · exact absurd h (by decide)
        · exact hn h
      rw [closesSentence_of_signal hsignal]
      exact ⟨fun h => (by cases h), fun h => absurd h hnot⟩
    · obtain ⟨hstar, hn⟩ := not_or.mp hplain
      obtain rfl := hmark.resolve_left hstar
      rw [List.append_nil, closesSentence_underscored hn hs hw]
      simp [hn]
  · have hlast : (front ++ List.replicate n mark ++ written ++ List.replicate n mark ++ [',']).getLast? = some ',' := by
      simp
    rw [closesSentence_of_comma hlast]
    simp

end Text

namespace Segment

/-- A segment that is passed over when one looks for the text before a citation. -/
def PassedOver : Segment → Prop
  | .breaker _ | .anchor _ => True
  | .text t => t.blank = true
  | .mention .. | .use _ => False

theorem opensSentenceAfter_append {skipped : List Segment} (h : ∀ s ∈ skipped, s.PassedOver) (before : List Segment) :
    opensSentenceAfter (skipped ++ before) = opensSentenceAfter before := by
  induction skipped with
  | nil => rfl
  | cons s skipped ih =>
    obtain ⟨hs, hskipped⟩ := List.forall_mem_cons.mp h
    cases s with
    | text t =>
      have ht : t.trimEnd = [] := Text.dropEndWhile_append (t := []) hs
      rw [List.cons_append, opensSentenceAfter, ht]
      exact ih hskipped
    | mention => cases hs
    | breaker => exact ih hskipped
    | anchor => exact ih hskipped
    | use => cases hs

/-- The text before a citation decides whether it opens a sentence. -/
theorem opensSentence_after_text {before skipped : List Segment} (hskipped : ∀ s ∈ skipped, s.PassedOver)
    {t trail : Text} {c : Char} (ht : t.getLast? = some c) (hc : isBlank c = false) (htrail : trail.blank = true) :
    opensSentence (before ++ .text (t ++ trail) :: skipped) = t.closesSentence := by
  have htrim : (t ++ trail).trimEnd = t :=
    (Text.dropEndWhile_append htrail t).trans (Text.dropEndWhile_of_getLast? ht hc)
  have hne : t ≠ [] := by
    rintro rfl
    cases ht
  rw [opensSentence, List.reverse_append, List.reverse_cons, List.append_assoc,
    opensSentenceAfter_append (by simpa using hskipped)]
  simp [opensSentenceAfter, htrim, hne]

/-- **A citation after a signal opens no sentence**, whatever comes before the signal, unless the signal stands in
underscores, ends in a full stop and has no comma after it. -/
theorem opensSentence_after_signal {before skipped : List Segment} (hskipped : ∀ s ∈ skipped, s.PassedOver)
    {front signal written comma trail : Text} {mark : Char} {n : Nat} (hfront : front.LeavesGap)
    (hmark : mark = '*' ∨ mark = '_') (hsignal : signal ∈ signals) (hwritten : Text.Spells signal written)
    (hcomma : comma = [] ∨ comma = [',']) (htrail : trail.blank = true) :
    opensSentence (before ++ .text (front ++ List.replicate n mark ++ written ++ List.replicate n mark ++ comma ++
      trail) :: skipped) = true ↔ mark = '_' ∧ n ≠ 0 ∧ signal.getLast? = some '.' ∧ comma = [] := by
  obtain ⟨c, hc, hblank, -⟩ := Text.getLast?_of_spells hsignal hwritten
  have hlast : ∃ d, (front ++ List.replicate n mark ++ written ++ List.replicate n mark ++ comma).getLast? = some d ∧
      isBlank d = false := by
    have hmarks : isBlank mark = false := by rcases hmark with rfl | rfl <;> decide
    rcases hcomma with rfl | rfl
    · by_cases hn : n = 0
      · exact ⟨c, by simp [hn, List.getLast?_append, hc], hblank⟩
      · exact ⟨mark, by simp [List.getLast?_append, List.getLast?_replicate, hn], hmarks⟩
    · exact ⟨',', by simp, by decide⟩
  obtain ⟨d, hd, hunblank⟩ := hlast
  rw [opensSentence_after_text hskipped hd hunblank htrail]
  exact Text.closesSentence_after_signal hfront hmark hsignal hwritten hcomma

/-- A signal in capitals, between asterisks and after a parenthesis, with a breaker and an anchor after it. -/
theorem opensSentence_after_signal_starred :
    opensSentence [.text "Done. (**CF., E.G.** ", .breaker 1, .text " ", .anchor "k"] = false := by
  have hskipped : ∀ s ∈ [breaker 1, .text " ", .anchor "k"], s.PassedOver := by
    simp only [List.forall_mem_cons, PassedOver, List.not_mem_nil, false_implies, implies_true, and_true, true_and]
    decide
  have hfront : Text.LeavesGap "Done. (" := by
    intro c hc
    cases hc
    exact .inr rfl
  have hwritten : Text.Spells "cf., e.g." "CF., E.G." := by
    unfold Text.Spells
    decide
  have h := @opensSentence_after_signal [] _ hskipped _ "cf., e.g." _ [] " " _ 2 hfront (.inl rfl) (by decide) hwritten
    (.inl rfl) (by decide)
  rw [← Bool.not_eq_true]
  intro hopens
  exact absurd (h.mp hopens).1 (by decide)

/-- A signal between underscores, which ends in a full stop, opens a sentence. -/
theorem opensSentence_after_underscores : Text.LeavesGap [] ∧ "cf.".toList ∈ signals ∧ Text.Spells "cf." "Cf." ∧
    opensSentence [.text ("_" ++ "Cf." ++ "_" ++ " ")] = true := by
  refine ⟨fun c hc => (by cases hc), by decide, ?_, by decide⟩
  unfold Text.Spells
  decide

end Segment

end Footcite
