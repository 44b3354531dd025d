import Footcite.Proofs.Pincite.Place
import Footcite.Proofs.Text.LongestMatch

/-!
# The longest clause is taken

The recogniser of a pincite clause settles on the longest clause (`Pincite.clause_leads`), though it prefers one
alternative to another. The alternatives exclude each other, by their first words; and each part that may be taken
shorter leaves something that no part after it begins with: the rest of a word, a further numeral, the end of a range, a
note or a further location. So scanning takes the longest clause at the front of a text, and nothing where there is no
clause (`Pincite.scan_longest`).
-/

namespace Footcite.Pincite

open Recogniser

/-! ## Numbers and ranges -/

/-- A word does not end before its rest. -/
theorem ahead_endsWord {q : Char → Bool} (hq : ∀ c, q c = true → isWordChar c = true) {s : Text} (hs : s.StartsIn q) :
    ahead Text.endsWord s = [] := by
  obtain ⟨c, rest, rfl, hc⟩ := hs
  simp [ahead, Text.endsWord, hq c hc]

/-- A numeral is of one length only. -/
theorem numeral_leads {P : Text → Prop} : Leads numeral P := by
  have hletter : Leads (one isLatinLetter).optional fun s => s.StartsIn isLatinLetter :=
    (Leads.one.optional_once (Inside.one (by decide))).imp fun s => Begins.one s
  refine (leads_many1_one (Inside.one (by decide))).next
    (hletter.next .ahead fun s => ahead_endsWord fun c => isWordChar_of_isLatinLetter) fun s hs => ?_
  have hnone : one isLatinLetter s = [] := Begins.one.refuses (fun c => isDecimalDigit_of_isLatinLetter) hs
  rw [next, Leads.optional_eq_self hnone, List.flatMap_singleton]
  exact ahead_endsWord (fun c => isWordChar_of_isDecimalDigit) hs

theorem numeral_begins : Begins numeral isDecimalDigit := Begins.one.next.next

theorem number_begins : Begins number isDecimalDigit := numeral_begins.next

theorem span_begins : Begins span isDecimalDigit := number_begins.next

theorem number_leads : Leads number fun s => s.GoesOnIn (isOneOf ".:") := by
  have hfurther : Begins ((oneOf ".:").next numeral) (isOneOf ".:") := (Begins.oneOf (by decide)).next
  refine numeral_leads.once_next (((Leads.one.once_next numeral_leads).many_once
    ((Inside.one (by decide)).next numeral_inside)).imp fun s hs => ?_)
  exact (hfurther s hs).goesOnIn fun c => isBlank_of_isOneOf (by decide)

theorem span_leads : Leads span fun s => s.GoesOnIn (isOneOf ".:-–—") := by
  have hblank : ∀ c, isOneOf "-–—" c = true → isBlank c = false := fun c => isBlank_of_isOneOf (by decide)
  have hdash : Begins ((oneOf "-–—").next (blanks.next number)) (isOneOf "-–—") := (Begins.oneOf (by decide)).next
  have hrange := leads_blanks_next hdash hblank
    (Leads.one.once_next (leads_blanks_next number_begins (fun c => isBlank_of_isDecimalDigit) number_leads))
  refine (number_leads.next_left_out (hrange.optional (Inside.blanks.next
    ((Inside.one (by decide)).next (Inside.blanks.next number_inside)))) Leads.mem_optional fun s hs => ?_).imp ?_
  · exact Leads.optional_eq_self (blanks_next_eq_nil hdash hblank (fun c => isOneOf_apart (by decide)) hs)
  · rintro s (hs | hs | hs)
    · exact hs.imp fun c => isOneOf_imp (by decide)
    · exact hs.imp fun c => isOneOf_imp (by decide)
    · exact (goesOnIn_of_next hdash hblank hs).imp fun c => isOneOf_imp (by decide)

/-! ## Locations -/

theorem noteReference_leads : Leads noteReference fun s => s.GoesOnIn (isOneOf ".:-–—") := by
  have hspan := leads_blanks_next span_begins (fun c => isBlank_of_isDecimalDigit) span_leads
  have hsecond : Leads (word "n").optional fun s => word "n" s ≠ [] :=
    (Leads.word _).optional_once (Inside.word (by decide))
  refine (Leads.word _).once_next (hsecond.next ((Leads.word _).once_next hspan) fun s hs => ?_)
  have hdot : WordsApart "n" "." := by decide
  exact next_eq_nil (hdot.word_eq_nil hs)

theorem noteReference_beginsWith : BeginsWith noteReference ["n"] := (BeginsWith.word _).next

/-- The words that labels begin with. -/
def labelWords : List Text := ["§", "¶", "pt.", "ch.", "para", "art.", "cl."]

theorem labels_beginWith : List.Forall₂ (fun a w => BeginsWith a [w])
    [(word "§").next (word "§").optional, (word "¶").next (word "¶").optional, word "pt.", word "ch.",
      (word "para").next (word ".").optional, word "art.", word "cl."] labelWords :=
  .cons (BeginsWith.word _).next (.cons (BeginsWith.word _).next (.cons (.word _) (.cons (.word _)
    (.cons (BeginsWith.word _).next (.cons (.word _) (.cons (.word _) .nil))))))

theorem label_beginsWith : BeginsWith label labelWords := .firstOf labels_beginWith

/-- A word, and a sign after it perhaps. -/
theorem leads_word_optional {w : Text} {l : Char} {ls : Text} (hl : l ∈ ls)
    (hi : ([l].all fun l => "()[]".toList.all fun c => !sameLetter l c) = true) :
    Leads ((word w).next (word [l]).optional) fun s => s.StartsIn (isOneOf ls) := by
  refine (Leads.word w).once_next (((Leads.word [l]).optional_once (Inside.word hi)).imp fun s hs => ?_)
  exact (Begins.word l [] s hs).imp fun c => isOneOf_of_mem hl

theorem label_leads : Leads label fun s => s.StartsIn (isOneOf "§¶.") := by
  refine Leads.firstOf ?_ (BeginsWith.pairwise labels_beginWith (by decide))
  simp only [List.forall_mem_cons]
  exact ⟨leads_word_optional (by decide) (by decide), leads_word_optional (by decide) (by decide), Leads.word _,
    Leads.word _, leads_word_optional (by decide) (by decide), Leads.word _, Leads.word _, by simp⟩

/-- **A match begins with a digit or with one of some words.** -/
def BeginsNumbered (a : Recogniser) (words : List Text) : Prop :=
  ∀ t, a t ≠ [] → t.StartsIn isDecimalDigit ∨ ∃ w ∈ words, word w t ≠ []

namespace BeginsNumbered

variable {a b : Recogniser} {words words' : List Text} {t : Text}

theorem of_beginsWith (ha : BeginsWith a words) : BeginsNumbered a words := fun t ht => .inr (ha t ht)

theorem next (ha : BeginsNumbered a words) : BeginsNumbered (a.next b) words := fun t ht => ha t (ne_nil_of_next ht)

theorem or (ha : BeginsNumbered a words) (hb : BeginsNumbered b words') : BeginsNumbered (a.or b) (words ++ words') := by
  intro t ht
  rcases ne_nil_of_or ht with hat | hbt
  · exact (ha t hat).imp_right (Exists.imp fun w hw => ⟨List.mem_append_left _ hw.1, hw.2⟩)
  · exact (hb t hbt).imp_right (Exists.imp fun w hw => ⟨List.mem_append_right _ hw.1, hw.2⟩)

/-- There is no other word where there is a match. -/
theorem word_eq_nil {w : Text} (ha : BeginsNumbered a words)
    (hdigit : w.head?.any (fun l => (letterVariants.lookup l).isNone && !isDecimalDigit l) = true)
    (hw : ∀ w' ∈ words, WordsApart w' w) (ht : a t ≠ []) : word w t = [] := by
  rcases ha t ht with hs | ⟨w', hw', hwt⟩
  · cases w with
    | nil => cases hdigit
    | cons l w =>
      have hplain : ((letterVariants.lookup l).isNone && !isDecimalDigit l) = true := hdigit
      rw [Bool.and_eq_true, Option.isNone_iff_eq_none, Bool.not_eq_true'] at hplain
      exact (Begins.word l w).refuses' (fun c => sameLetter_of_isDecimalDigit hplain.1 hplain.2) hs
  · exact (hw w' hw').word_eq_nil hwt

theorem begins {ls : Text} (ha : BeginsNumbered a words) (h : (words.all fun w => w.head?.any ls.contains) = true) :
    Begins a fun c => isDecimalDigit c || isOneOf ls c := by
  intro t ht
  rcases ha t ht with hs | ⟨w, hw, hwt⟩
  · exact hs.imp fun c hc => by rw [hc, Bool.true_or]
  · exact (startsIn_of_word (List.all_eq_true.mp h w hw) hwt).imp fun c hc => by rw [hc, Bool.or_true]

end BeginsNumbered

/-- A location by its number, with a label before it perhaps and a note after it. -/
def numbered : Recogniser := (label.next blanks).optional.next (span.next (blanks.next noteReference).optional)

theorem numbered_begins : BeginsNumbered numbered labelWords := by
  intro t ht
  by_cases hlabel : label t = []
  · rw [numbered, next, Leads.optional_eq_self (next_eq_nil hlabel), List.flatMap_singleton] at ht
    exact .inl (span_begins.next t ht)
  · exact .inr (label_beginsWith t hlabel)

theorem numbered_leads : Leads numbered fun s => s.GoesOnIn (isOneOf ".:-–—n") := by
  have hblank : ∀ c, isOneOf "n" c = true → isBlank c = false := fun c => isBlank_of_isOneOf (by decide)
  have hnote : Begins noteReference (isOneOf "n") := noteReference_beginsWith.begins (by decide)
  have hspan : Leads (span.next (blanks.next noteReference).optional) fun s => s.GoesOnIn (isOneOf ".:-–—n") := by
    refine (span_leads.next_left_out ((leads_blanks_next hnote hblank noteReference_leads).optional
      (Inside.blanks.next noteReference_inside)) Leads.mem_optional fun s hs => ?_).imp ?_
    · exact Leads.optional_eq_self (blanks_next_eq_nil hnote hblank (fun c => isOneOf_apart (by decide)) hs)
    · rintro s (hs | hs | hs)
      · exact hs.imp fun c => isOneOf_imp (by decide)
      · exact hs.imp fun c => isOneOf_imp (by decide)
      · exact (goesOnIn_of_next hnote hblank hs).imp fun c => isOneOf_imp (by decide)
  have hlabelled := label_leads.next_left_out leads_blanks Leads.mem_many fun s hs =>
    Leads.many_eq_self (Begins.one.refuses' (fun c => isBlank_of_isOneOf (by decide)) hs)
  refine (hlabelled.optional (label_inside.next Inside.blanks)).next hspan ?_
  -- What is left is no number: the rest of a label, blanks, or a label again.
  have hlabel : Begins label (isOneOf "§¶pca") := label_beginsWith.begins (by decide)
  rintro s ((hs | hs) | hs)
  · exact span_begins.next.refuses' (fun c => isDecimalDigit_of_isOneOf (by decide)) hs
  · exact span_begins.next.refuses (fun c => isBlank_of_isDecimalDigit) hs
  · exact span_begins.next.refuses' (fun c => isDecimalDigit_of_isOneOf (by decide)) (hlabel.next s hs)

/-- The words that locations begin with, if not with a number. -/
def locationWords : List Text := ["§", "¶", "pt.", "ch.", "para", "art.", "cl.", "n", "pmbl."]

theorem location_begins : BeginsNumbered location locationWords := by
  have hothers : BeginsWith (firstOf [noteReference, word "pmbl."]) ["n", "pmbl."] :=
    .firstOf (.cons noteReference_beginsWith (.cons (.word _) .nil))
  exact numbered_begins.or (.of_beginsWith hothers)

theorem location_leads : Leads location fun s => s.GoesOnIn (isOneOf ".:-–—n") := by
  have hnote : Leads noteReference fun s => s.GoesOnIn (isOneOf ".:-–—n") :=
    noteReference_leads.imp fun s hs => hs.imp fun c => isOneOf_imp (by decide)
  refine Leads.firstOf (List.forall_mem_cons.mpr ⟨numbered_leads, List.forall_mem_cons.mpr ⟨hnote,
    List.forall_mem_singleton.mpr (Leads.word _)⟩⟩) (.cons ?_ (.cons ?_ (List.pairwise_singleton _ _)))
  · intro b hb t ht
    have hn : word "n" t = [] := numbered_begins.word_eq_nil (by decide) (by decide) ht
    have hp : word "pmbl." t = [] := numbered_begins.word_eq_nil (by decide) (by decide) ht
    rcases List.mem_pair.mp hb with rfl | rfl
    · exact next_eq_nil hn
    · exact hp
  · intro b hb t ht
    rw [List.mem_singleton.mp hb]
    exact noteReference_beginsWith.exclude (.word _) (by decide) ht

/-- A location begins with no blank. -/
theorem location_refuses_blank {s : Text} (hs : s.StartsIn isBlank) : location s = [] := by
  have hbegins : Begins location fun c => isDecimalDigit c || isOneOf "§¶pcan" c := location_begins.begins (by decide)
  refine hbegins.refuses (fun c hc => ?_) hs
  rcases Bool.or_eq_true _ _ |>.mp hc with hc | hc
  · exact isBlank_of_isDecimalDigit hc
  · exact isBlank_of_isOneOf (by decide) hc

/-! ## Lists of locations -/

theorem joint_leads : Leads joint fun s => s.StartsIn isBlank := by
  have hblank : ∀ c, isOneOf ",&" c = true → isBlank c = false := fun c => isBlank_of_isOneOf (by decide)
  have hmark : Begins ((oneOf ",&").next blanks) (isOneOf ",&") := (Begins.oneOf (by decide)).next
  have hand : Begins ((word "and").next gap) (isOneOf "a") := (BeginsWith.word "and").next.begins (by decide)
  have hrefuse {s : Text} (hs : s.StartsIn isBlank) : (word "and").next gap s = [] :=
    hand.refuses (fun c => isBlank_of_isOneOf (by decide)) hs
  refine (leads_blanks_next hmark hblank (Leads.one.once_next leads_blanks)).or
    (leads_gap.next ((Leads.word _).once_next leads_gap) fun s => hrefuse) fun t ht => ?_
  -- After the blanks there is a mark, so no "and".
  have hgoes : t.GoesOnIn (isOneOf ",&") := goesOnIn_of_next hmark hblank ht
  refine List.flatMap_eq_nil_iff.mpr fun s hs => ?_
  obtain ⟨lead, rfl, -, hlead⟩ := (Accepts.gap t s).mp hs
  rw [Text.GoesOnIn, Text.trimStart_append hlead] at hgoes
  by_contra hne
  have hs' : s.GoesOnIn (isOneOf "a") := (hand s hne).goesOnIn fun c => isBlank_of_isOneOf (by decide)
  exact hgoes.not (fun c => isOneOf_apart (by decide)) hs'

/-- After blanks a comma, an ampersand or an "and" joins a location. -/
theorem joint_goesOn {t : Text} (ht : joint t ≠ []) : t.GoesOnIn (isOneOf ",&a") := by
  by_cases hmark : blanks.next ((oneOf ",&").next blanks) t = []
  · rw [joint, Recogniser.or, hmark, List.nil_append] at ht
    obtain ⟨r, hr⟩ := List.exists_mem_of_ne_nil _ ht
    obtain ⟨s, hs, hrs⟩ := List.mem_flatMap.mp hr
    obtain ⟨lead, rfl, -, hlead⟩ := (Accepts.gap t s).mp hs
    have hand : Begins ((word "and").next gap) (isOneOf ",&a") := (BeginsWith.word "and").next.begins (by decide)
    rw [Text.GoesOnIn, Text.trimStart_append hlead]
    exact (hand s (List.ne_nil_of_mem hrs)).goesOnIn fun c => isBlank_of_isOneOf (by decide)
  · have hmarks : Begins ((oneOf ",&").next blanks) (isOneOf ",&a") := (Begins.oneOf (by decide)).next
    exact goesOnIn_of_next hmarks (fun c => isBlank_of_isOneOf (by decide)) hmark

/-- Where a list of locations can go on: the last location can, or there is a further one. -/
def GoesOn (s : Text) : Prop := s.GoesOnIn (isOneOf ".:-–—n") ∨ joint.next location s ≠ []

theorem locations_leads : Leads locations GoesOn := by
  have hrefuse {s : Text} (hs : s.GoesOnIn (isOneOf ".:-–—n")) : joint.next location s = [] := by
    have hjoint : joint s = [] := by_contra fun hne => hs.not (fun c => isOneOf_apart (by decide)) (joint_goesOn hne)
    exact next_eq_nil hjoint
  have hfurther : Leads (joint.next location) fun s => s.GoesOnIn (isOneOf ".:-–—n") :=
    joint_leads.next location_leads fun s => location_refuses_blank
  refine (location_leads.next_left_out (hfurther.many (joint_inside.next location_inside) fun s => hrefuse)
    Leads.mem_many fun s hs => Leads.many_eq_self (hrefuse hs)).imp ?_
  rintro s (hs | hs)
  · exact .inl hs
  · exact hs

/-! ## Clauses -/

/-- The placeholder or a list of locations. -/
def core : Recogniser := ((word placeholder).next (ahead Text.endsWord)).or locations

theorem core_begins : BeginsNumbered core ("tk".toList :: locationWords) :=
  (BeginsNumbered.of_beginsWith (BeginsWith.word "tk").next).or location_begins.next

theorem core_leads : Leads core GoesOn := by
  refine ((Leads.word _).once_next .ahead).or locations_leads fun t ht => ?_
  by_contra hne
  refine ht ?_
  have htk : word "tk" t = [] := location_begins.next.word_eq_nil (by decide) (by decide) hne
  exact next_eq_nil htk

/-- What the placeholder or a location begins with is neither a blank nor a mark or bracket that ends a clause. -/
theorem core_startsIn {t : Text} (ht : core t ≠ []) :
    ∃ c rest, t = c :: rest ∧ isBlank c = false ∧ c ∉ ".,;:([".toList := by
  have hbegins : Begins core fun c => isDecimalDigit c || isOneOf "t§¶pcan" c := core_begins.begins (by decide)
  obtain ⟨c, rest, rfl, hc⟩ := hbegins t ht
  have hmarks : (".,;:([".toList.all fun m => !(isDecimalDigit m || isOneOf "t§¶pcan" m)) = true := by decide
  have hc : (isDecimalDigit c || isOneOf "t§¶pcan" c) = true := hc
  refine ⟨c, rest, rfl, ?_, fun hmark => ?_⟩
  · rcases Bool.or_eq_true _ _ |>.mp hc with hc | hc
    · exact isBlank_of_isDecimalDigit hc
    · exact isBlank_of_isOneOf (by decide) hc
  · have hno : (!(isDecimalDigit c || isOneOf "t§¶pcan" c)) = true := List.all_eq_true.mp hmarks c hmark
    rw [hc] at hno
    cases hno

/-- The placeholder or a list of locations, with an "at" before it perhaps. -/
def ledCore : Recogniser := ((word "at").next gap).optional.next core

theorem ledCore_begins : Begins ledCore fun c => !isBlank c := by
  have hat : Begins ((word "at").next gap) (isOneOf "a") := (BeginsWith.word "at").next.begins (by decide)
  refine Begins.optional_next (hat.imp fun c hc => ?_) fun t ht => ?_
  · have hblank : isBlank c = false := isBlank_of_isOneOf (by decide) hc
    simp [hblank]
  · obtain ⟨c, rest, rfl, hc, -⟩ := core_startsIn ht
    exact ⟨c, rest, rfl, by simp [hc]⟩

/-- An "at" is no location. -/
theorem core_eq_nil_of_at {t : Text} (ht : word "at" t ≠ []) : core t = [] :=
  by_contra fun hne => ht (core_begins.word_eq_nil (by decide) (by decide) hne)

theorem leadingAt_leads : Leads ((word "at").next gap).optional fun s => core s = [] := by
  have hat : Leads ((word "at").next gap) fun s => s.StartsIn isBlank := (Leads.word _).once_next leads_gap
  refine (hat.optional ((Inside.word (by decide)).next Inside.gap)).imp ?_
  rintro s (⟨c, rest, rfl, hc⟩ | hs)
  · by_contra hne
    obtain ⟨c', rest', hcons, hc', -⟩ := core_startsIn hne
    rw [(List.cons.inj hcons).1, hc'] at hc
    cases hc
  · exact core_eq_nil_of_at fun hnone => hs (next_eq_nil hnone)

theorem ledCore_leads : Leads ledCore GoesOn := leadingAt_leads.next core_leads fun _ hs => hs

theorem place_leads : Leads place GoesOn := leads_blanks_next ledCore_begins (fun c hc => by simpa using hc) ledCore_leads

/-- There is but one way to take a word. -/
theorem word_append {w u v : Text} (hu : Text.Spells w u) : ∀ r ∈ word w (u ++ v), r = v := by
  intro r hr
  obtain ⟨u', heq, hu'⟩ := (Accepts.word w _ r).mp hr
  exact (List.append_inj heq ((List.Forall₂.length_eq hu).symm.trans (List.Forall₂.length_eq hu'))).2.symm

/-- **An "at" before a place is not by itself.** -/
theorem bareAt_eq_nil {t : Text} (ht : place t ≠ []) : bareAt t = [] := by
  have hbare : Begins ((word "at").next (ahead closesClause)) (isOneOf "a") :=
    (BeginsWith.word "at").next.begins (by decide)
  have ht : ledCore t.trimStart ≠ [] := by
    rwa [place, ← core, ← ledCore, blanks_next ledCore_begins (fun c hc => by simpa using hc)] at ht
  rw [bareAt, blanks_next hbare (fun c => isBlank_of_isOneOf (by decide))]
  by_contra hne
  have hat : word "at" t.trimStart ≠ [] := fun hnone => hne (next_eq_nil hnone)
  -- The place comes after the "at" and a gap, so the clause does not close after the "at".
  obtain ⟨r, hr⟩ := List.exists_mem_of_ne_nil _ ht
  obtain ⟨s, hs, hrs⟩ := List.mem_flatMap.mp hr
  rcases List.mem_append.mp hs with hs | hs
  · obtain ⟨_, hs, u, blanks, rfl, hu, -, hblanks⟩ := ((Accepts.word "at").next Accepts.gap _ _).mp hs
    rw [List.append_assoc] at hs
    refine hne (List.flatMap_eq_nil_iff.mpr fun v hv => if_neg ?_)
    rw [hs] at hv
    rw [word_append hu v hv, closesClause, Text.trimStart_append hblanks]
    obtain ⟨c, rest, rfl, hc, hmark⟩ := core_startsIn (List.ne_nil_of_mem hrs)
    rw [Text.trimStart_cons hc]
    simpa using hmark
  · rw [List.mem_singleton.mp hs, core_eq_nil_of_at hat] at hrs
    cases hrs

/-- **The longest clause comes first.** -/
theorem clause_leads : Leads clause GoesOn := by
  refine place_leads.or ?_ fun t => bareAt_eq_nil
  have hbare : Begins ((word "at").next (ahead closesClause)) (isOneOf "a") :=
    (BeginsWith.word "at").next.begins (by decide)
  exact leads_blanks_next hbare (fun c => isBlank_of_isOneOf (by decide)) ((Leads.word _).once_next .ahead)

/-! ## Scanning -/

/-- A clause is not blank. -/
theorem IsClause.trim_ne_nil {u v : Text} (h : IsClause u v) : u.trim ≠ [] := by
  cases h.takes with
  | bareAt hlead hat =>
    obtain ⟨a, t, rfl, -, -⟩ := hat.letters
    rw [hat.trim hlead]
    exact List.cons_ne_nil a [t]
  | place hlead hat hcore =>
    rw [trim_led hlead hat hcore.blank hcore.trimStart]
    exact fun h => hcore.cleaned.ne_nil (List.append_eq_nil_iff.mp h).2

/-- The first match is taken. -/
theorem scan_of_cons {t v : Text} {rs : List Text} (h : clause t = v :: rs) :
    ∃ u, t = u ++ v ∧ IsClause u v ∧ scan t = (some u.trim, v) := by
  obtain ⟨u, rfl, hu⟩ := (accepts_clause t v).mp (by simp [h])
  refine ⟨u, rfl, hu, ?_⟩
  have htrimmed : u.trimmed? = some u.trim := by
    refine Text.trimmed?_eq_trim (by_contra fun hblank => hu.trim_ne_nil (Text.trim_eq_nil.mpr ?_))
    simpa using hblank
  simp [scan, h, htrimmed]

/-- Nothing is taken where there is no clause. -/
theorem scan_of_nil {t : Text} (h : clause t = []) : scan t = (none, t) := by simp [scan, h]

/-- **The longest clause is scanned.** There is no pincite just where no clause stands at the front of the text; and
otherwise the pincite is the longest of the clauses that do, without the blanks around it. -/
theorem scan_longest (t : Text) :
    (scan t = (none, t) ↔ ∀ u v, t = u ++ v → ¬IsClause u v) ∧
    ((∃ u v, t = u ++ v ∧ IsClause u v) → ∃ u v, t = u ++ v ∧ IsClause u v ∧
      (∀ u' v', t = u' ++ v' → IsClause u' v' → u'.length ≤ u.length) ∧ u.trim ≠ [] ∧ scan t = (some u.trim, v)) := by
  have hclause {u v : Text} (ht : t = u ++ v) : v ∈ clause t ↔ IsClause u v := by rw [ht, accepts_clause.mem]
  constructor
  · constructor
    · intro hnone u v ht hu
      cases hrests : clause t with
      | nil => simp [← hclause ht, hrests] at hu
      | cons v' rs =>
        obtain ⟨u', -, -, hscan⟩ := scan_of_cons hrests
        simp [hscan] at hnone
    · intro hno
      refine scan_of_nil (List.eq_nil_iff_forall_not_mem.mpr fun v hv => ?_)
      obtain ⟨u, ht, hu⟩ := (accepts_clause t v).mp hv
      exact hno u v ht hu
  · rintro ⟨u', v', ht', hu'⟩
    cases hrests : clause t with
    | nil => simp [← hclause ht', hrests] at hu'
    | cons v rs =>
      obtain ⟨u, ht, hu, hscan⟩ := scan_of_cons hrests
      refine ⟨u, v, ht, hu, fun u' v' ht' hu' => ?_, hu.trim_ne_nil, hscan⟩
      -- What the longest clause leaves is the shortest rest.
      have hle := clause_leads.length_le hrests ((hclause ht').mpr hu')
      have hlength := congrArg List.length (ht.symm.trans ht')
      simp only [List.length_append] at hlength
      omega

/-- A list with a section and its note, before a semicolon. -/
theorem scan_longest_list : ∃ u v : Text, " at 5, § 12 n.4; see".toList = u ++ v ∧ IsClause u v ∧
    (∀ u' v', " at 5, § 12 n.4; see".toList = u' ++ v' → IsClause u' v' → u'.length ≤ u.length) ∧ u.trim ≠ [] ∧
    scan " at 5, § 12 n.4; see" = (some u.trim, v) := by
  refine (scan_longest " at 5, § 12 n.4; see").2 (by_contra fun hno => ?_)
  have hscan : scan " at 5, § 12 n.4; see" = (none, " at 5, § 12 n.4; see".toList) :=
    (scan_longest _).1.mpr fun u v ht hu => hno ⟨u, v, ht, hu⟩
  revert hscan
  decide +kernel

end Footcite.Pincite
