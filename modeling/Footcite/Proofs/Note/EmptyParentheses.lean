import Footcite.Proofs.Note.Token
import Footcite.Proofs.Pincite.Clause
import Footcite.Proofs.Text.Brackets
import Footcite.Proofs.Text.Ends

/-!
# Empty parentheses after mentions

Parentheses that hold nothing but blanks leave no trace in the segments of a note where they follow a mention and its
pincite. In the written body they are found by looking through it from its beginning to its end, with no regard to what
is nested in what (`Text.withoutEmptyParentheses`). The reader goes into the parentheses of a mention instead, but it
finds the same ones: at every mention that it reads, what is left of the text without them and without blanks
(`Text.essence`) comes apart as the text itself does.
-/

namespace Footcite

/-! ## Empty parentheses after mentions -/

namespace Text

/-- Any character but a parenthesis. -/
def notParenthesis (c : Char) : Bool := c != '(' && c != ')'

/-- The beginning of a text up to parentheses that hold nothing but blanks, and what follows these, where the beginning
is a pincite clause, or none, and blanks. -/
def pinciteBeforeEmpty? (t : Text) : Option (Text × Text) := do
  let opened ← after? "(" (t.dropWhile notParenthesis)
  let rest ← after? ")" opened.trimStart
  let pincite := t.takeWhile notParenthesis
  if (Pincite.scan pincite).2.blank then some (pincite, rest) else none

/-- A mention and its pincite at the beginning of a text, and what follows the empty parentheses after them. -/
def mentionBeforeEmpty? (t : Text) : Option (Text × Text) := do
  let opened ← after? "[@" t
  let after ← after? "]" (opened.dropWhile (· != ']'))
  let id := opened.takeWhile (· != ']')
  let (pincite, rest) ← pinciteBeforeEmpty? after
  if Token.isMentionId id then some ("[@" ++ id ++ "]" ++ pincite, rest) else none

/-- Where a class of characters ends in a text. -/
theorem span_append_cons {p : Char → Bool} {u : Text} {c : Char} (hu : ∀ x ∈ u, p x = true) (hc : p c = false)
    (v : Text) : (u ++ c :: v).takeWhile p = u ∧ (u ++ c :: v).dropWhile p = c :: v := by
  rw [List.takeWhile_append_of_pos hu, List.dropWhile_append_of_pos hu, List.takeWhile_cons_of_neg (by simp [hc]),
    List.dropWhile_cons_of_neg (by simp [hc]), List.append_nil]
  exact ⟨rfl, rfl⟩

theorem notParenthesis_eq_true {c : Char} : notParenthesis c = true ↔ c ≠ '(' ∧ c ≠ ')' := by
  simp [notParenthesis]

/-- What pinciteBeforeEmpty? finds, in terms of the text. -/
theorem pinciteBeforeEmpty?_eq_some {t pincite rest : Text} : pinciteBeforeEmpty? t = some (pincite, rest) ↔
    (∀ c ∈ pincite, notParenthesis c = true) ∧ (Pincite.scan pincite).2.blank = true ∧
      ∃ blanks : Text, blanks.blank = true ∧ t = pincite ++ '(' :: (blanks ++ ')' :: rest) := by
  simp only [pinciteBeforeEmpty?, Option.bind_eq_bind, Option.bind_eq_some_iff, after?_eq_some,
    Option.ite_none_right_eq_some, Option.some.injEq, Prod.mk.injEq]
  constructor
  · rintro ⟨opened, ho, rest', hr, hscan, rfl, rfl⟩
    obtain ⟨blanks, hb, hblank⟩ := exists_trimStart opened
    refine ⟨fun c hc => List.mem_takeWhile_imp hc, hscan, blanks, hblank, ?_⟩
    rw [hr] at hb
    conv_lhs => rw [← List.takeWhile_append_dropWhile (p := notParenthesis) (l := t), ho, hb]
    rfl
  · rintro ⟨hpin, hscan, blanks, hblank, rfl⟩
    obtain ⟨htake, hdrop⟩ := span_append_cons hpin (by decide : notParenthesis '(' = false) (blanks ++ ')' :: rest)
    refine ⟨blanks ++ ')' :: rest, hdrop, rest, ?_, by rw [htake]; exact hscan, htake, rfl⟩
    rw [trimStart_append hblank, trimStart_cons (by decide)]
    rfl

/-- A mention and its pincite are found by the clause after the brackets. -/
theorem mentionBeforeEmpty?_mention {id : Text} (hid : Token.isMentionId id = true) (after : Text) :
    mentionBeforeEmpty? ('[' :: '@' :: (id ++ ']' :: after)) =
      (pinciteBeforeEmpty? after).map fun (pincite, rest) => ('[' :: '@' :: (id ++ ']' :: pincite), rest) := by
  have hclosing : ∀ c ∈ id, (c != ']') = true := by
    intro c hc
    simpa using (Token.ne_of_isMentionId hid c hc).2
  obtain ⟨htake, hdrop⟩ := span_append_cons hclosing (by decide : (']' != ']') = false) after
  have hopen : after? "[@" ('[' :: '@' :: (id ++ ']' :: after)) = some (id ++ ']' :: after) := rfl
  have hclose : after? "]" (']' :: after) = some after := rfl
  simp only [mentionBeforeEmpty?, hopen, hdrop, hclose, htake, hid, Option.bind_eq_bind, Option.bind_some, if_true]
  cases pinciteBeforeEmpty? after with
  | none => rfl
  | some found => simp

/-- What is found is the text but for the empty parentheses. -/
theorem mentionBeforeEmpty?_eq {t mention rest : Text} (h : mentionBeforeEmpty? t = some (mention, rest)) :
    ∃ blanks : Text, blanks.blank = true ∧ t = mention ++ '(' :: (blanks ++ ')' :: rest) := by
  simp only [mentionBeforeEmpty?, Option.bind_eq_bind, Option.bind_eq_some_iff, after?_eq_some,
    Option.ite_none_right_eq_some, Option.some.injEq, Prod.mk.injEq] at h
  obtain ⟨opened, ho, after, ha, ⟨pincite, rest'⟩, hpin, -, rfl, rfl⟩ := h
  obtain ⟨-, -, blanks, hblank, hafter⟩ := pinciteBeforeEmpty?_eq_some.mp hpin
  refine ⟨blanks, hblank, ?_⟩
  conv_lhs => rw [ho, ← List.takeWhile_append_dropWhile (p := (· != ']')) (l := opened), ha, hafter]
  simp

/-- The text without the parentheses that hold nothing but blanks and come directly after a mention and its pincite. -/
def withoutEmptyParentheses (t : Text) : Text :=
  match t with
  | [] => []
  | c :: rest =>
    match _h : mentionBeforeEmpty? (c :: rest) with
    | some (mention, after) => mention ++ withoutEmptyParentheses after
    | none => c :: withoutEmptyParentheses rest
  termination_by t.length
  decreasing_by
    · obtain ⟨blanks, -, ht⟩ := mentionBeforeEmpty?_eq _h
      rw [ht]
      simp
      omega
    · simp

theorem withoutEmptyParentheses_found {t mention rest : Text} (h : mentionBeforeEmpty? t = some (mention, rest)) :
    withoutEmptyParentheses t = mention ++ withoutEmptyParentheses rest := by
  cases t with
  | nil => simp [mentionBeforeEmpty?, after?] at h
  | cons c t =>
    rw [withoutEmptyParentheses]
    split
    · next he =>
      rw [he] at h
      cases h
      rfl
    · next hn => simp [hn] at h

theorem withoutEmptyParentheses_cons {c : Char} {t : Text} (h : mentionBeforeEmpty? (c :: t) = none) :
    withoutEmptyParentheses (c :: t) = c :: withoutEmptyParentheses t := by
  rw [withoutEmptyParentheses]
  split
  · next he => simp [he] at h
  · rfl

/-- Where no square bracket is followed by an at sign, there is no mention to look for. -/
theorem withoutEmptyParentheses_append {u t : Text} (h : ∀ v w, u = v ++ '[' :: w → (w ++ t).head? ≠ some '@') :
    withoutEmptyParentheses (u ++ t) = u ++ withoutEmptyParentheses t := by
  induction u with
  | nil => rfl
  | cons c u ih =>
    have hnone : mentionBeforeEmpty? (c :: (u ++ t)) = none := by
      have hopen : after? "[@" (c :: (u ++ t)) = none := by
        rw [Option.eq_none_iff_forall_ne_some]
        intro opened ho
        obtain ⟨rfl, hat⟩ := List.cons.inj (after?_eq_some.mp ho)
        exact h [] u rfl (by rw [hat]; rfl)
      rw [mentionBeforeEmpty?, hopen]
      rfl
    rw [List.cons_append, withoutEmptyParentheses_cons hnone, ih fun v w hu => h (c :: v) w (by rw [hu]; rfl)]
    rfl

/-- In a text without brackets there is none. -/
theorem withoutEmptyParentheses_append_of_free {u : Text} (h : ∀ c ∈ u, c ≠ '[') (t : Text) :
    withoutEmptyParentheses (u ++ t) = u ++ withoutEmptyParentheses t :=
  withoutEmptyParentheses_append fun v w hu => absurd rfl (h '[' (by simp [hu]))

theorem not_head_of_holds {u : Text} (h : holds "[@" u = false) : ∀ v w, u = v ++ '[' :: w → w.head? ≠ some '@' := by
  induction u with
  | nil => simp
  | cons c u ih =>
    intro v w hu hw
    simp only [holds, Bool.or_eq_false_iff] at h
    cases v with
    | nil =>
      obtain ⟨rfl, rfl⟩ := List.cons.inj hu
      obtain ⟨w', rfl⟩ : ∃ w', u = '@' :: w' := by
        cases u with
        | nil => cases hw
        | cons d u => exact ⟨u, by simpa using hw⟩
      simp at h
    | cons d v => exact ih h.2 v w (List.cons.inj hu).2 hw

/-! ## The end of a parenthetical -/

/-- A text that ends, or goes on with blanks and a closing parenthesis. -/
inductive Closes : Text → Prop
  | done : Closes []
  | closing {blanks : Text} (rest : Text) : blanks.blank = true → Closes (blanks ++ ')' :: rest)

/-- Blanks are no brackets. -/
theorem isBracket_of_blank {t : Text} (h : t.blank = true) : ∀ c ∈ t, isBracket c = false :=
  fun c hc => isBracket_eq_false (p := isBlank) (by decide) (List.all_eq_true.mp h c hc)

theorem notParenthesis_of_isBracket {c : Char} (h : isBracket c = false) : notParenthesis c = true := by
  simp [isBracket] at h
  simp [notParenthesis, h]

theorem ne_of_isBracket {c : Char} (h : isBracket c = false) : c ≠ '[' := by
  simp [isBracket] at h
  exact h.2.2.1

/-- An at sign does not come first there. -/
theorem Closes.head?_ne {s : Text} (h : Closes s) : s.head? ≠ some '@' := by
  cases h with
  | done => simp
  | @closing blanks rest hb =>
    cases blanks with
    | nil => simp
    | cons c blanks =>
      intro hc
      have hc : c = '@' := by simpa using hc
      have := List.all_eq_true.mp hb c (by simp)
      rw [hc] at this
      revert this
      decide

/-- The first parenthesis there is a closing one. -/
theorem Closes.not_opening {s z x : Text} (h : Closes s) (hz : ∀ c ∈ z, notParenthesis c = true) :
    s ≠ z ++ '(' :: x := by
  intro hs
  have hdrop := (span_append_cons hz (by decide : notParenthesis '(' = false) x).2
  rw [← hs] at hdrop
  cases h with
  | done => cases hdrop
  | closing rest hb =>
    rw [(span_append_cons (fun c hc => notParenthesis_of_isBracket (isBracket_of_blank hb c hc))
      (by decide : notParenthesis ')' = false) rest).2] at hdrop
    cases hdrop

/-! ## A mention that is read -/

variable {id after rest opened inside r s : Text} {pincite : Option Text}

/-- There are no empty parentheses after a mention that has none after it. -/
theorem pinciteBeforeEmpty?_bare (hscan : Pincite.scan after = (pincite, rest))
    (hno : ∀ opened, rest.trimStart ≠ '(' :: opened) (hs : Closes s) : pinciteBeforeEmpty? (after ++ s) = none := by
  rw [Option.eq_none_iff_forall_ne_some]
  rintro ⟨between, tail⟩ hfound
  obtain ⟨hpin, hblank, blanks, -, ht⟩ := pinciteBeforeEmpty?_eq_some.mp hfound
  rcases List.append_eq_append_iff.mp ht with ⟨z, rfl, hz⟩ | ⟨z, rfl, hz⟩
  · -- The parenthesis would be the first of what comes after.
    exact hs.not_opening (fun c hc => hpin c (List.mem_append_right _ hc)) hz
  · cases z with
    | nil => exact hs.not_opening (z := []) (by simp) hz.symm
    | cons d z =>
      obtain ⟨rfl, -⟩ := List.cons.inj hz
      rw [Pincite.scan_append, Prod.mk.injEq] at hscan
      refine hno z ?_
      rw [← hscan.2, trimStart_append hblank, trimStart_cons (by decide)]

/-- What a mention takes up to its parentheses. -/
theorem exists_of_scan (hscan : Pincite.scan after = (pincite, rest)) : ∃ u : Text, after = u ++ rest ∧
    pincite = u.trimmed? ∧ ∀ c ∈ u, isBracket c = false := by
  obtain ⟨u, hafter, hpin, hfree⟩ := Pincite.scan_eq after
  rw [hscan] at hafter hpin
  exact ⟨u, hafter, hpin, hfree⟩

/-- Parentheses after a mention are found to be empty when they hold nothing but blanks, and only then. -/
theorem pinciteBeforeEmpty?_parenthesised (hscan : Pincite.scan after = (pincite, rest))
    (ho : rest.trimStart = '(' :: opened) (he : enclosed? round opened = some (inside, r)) :
    (inside.blank = true →
      ∃ u : Text, after = u ++ '(' :: opened ∧ pinciteBeforeEmpty? (after ++ s) = some (u, r ++ s)) ∧
      (inside.blank = false → pinciteBeforeEmpty? (after ++ s) = none) := by
  obtain ⟨u, hafter, -, hfree⟩ := exists_of_scan hscan
  obtain ⟨lead, hrest, hlead⟩ := exists_trimStart rest
  rw [ho] at hrest
  have hopened := enclosed?_eq he
  have hsplit : after = (u ++ lead) ++ '(' :: opened := by rw [hafter, hrest, List.append_assoc]
  have hpin : ∀ c ∈ u ++ lead, notParenthesis c = true := by
    intro c hc
    apply notParenthesis_of_isBracket
    exact (List.mem_append.mp hc).elim (hfree c) (isBracket_of_blank hlead c)
  have hscan' : (Pincite.scan (u ++ lead)).2 = lead := by
    rw [hsplit, Pincite.scan_append, Prod.mk.injEq, hrest] at hscan
    exact List.append_cancel_right hscan.2
  constructor
  · intro hblank
    refine ⟨u ++ lead, hsplit, pinciteBeforeEmpty?_eq_some.mpr ⟨hpin, by rw [hscan', hlead], inside, hblank, ?_⟩⟩
    rw [hsplit, hopened]
    simp [round]
  · intro hinside
    rw [Option.eq_none_iff_forall_ne_some]
    rintro ⟨between, tail⟩ hfound
    obtain ⟨hbetween, -, blanks, hblank, ht⟩ := pinciteBeforeEmpty?_eq_some.mp hfound
    -- Both texts are cut at their first parenthesis.
    have hdrop := (span_append_cons hpin (by decide : notParenthesis '(' = false) (opened ++ s)).2
    rw [← List.cons_append, ← List.append_assoc, ← hsplit, ht,
      (span_append_cons hbetween (by decide) (blanks ++ ')' :: tail)).2] at hdrop
    have hfirst : enclosed? round (opened ++ s) = some (blanks, tail) := by
      have htail : opened ++ s = blanks ++ ')' :: tail := (List.cons.inj hdrop).2.symm
      rw [htail]
      refine (Brackets.enclosed?_eq_some (by decide)).mpr ⟨rfl, .of_free (by decide) fun c hc => ?_⟩
      exact notParenthesis_eq_true.mp (notParenthesis_of_isBracket (isBracket_of_blank hblank c hc))
    have hsecond : enclosed? round (opened ++ s) = some (inside, r ++ s) := by
      obtain ⟨ht, hb⟩ := (Brackets.enclosed?_eq_some (by decide)).mp he
      exact (Brackets.enclosed?_eq_some (by decide)).mpr ⟨by rw [ht, List.append_assoc]; rfl, hb⟩
    rw [hfirst, Option.some.injEq, Prod.mk.injEq] at hsecond
    rw [← hsecond.1, hblank] at hinside
    cases hinside

/-- The text without its blanks and without empty parentheses after mentions. -/
def essence (t : Text) : Text := t.withoutEmptyParentheses.withoutBlanks

theorem essence_append_of_free {u : Text} (h : ∀ c ∈ u, c ≠ '[') (t : Text) :
    essence (u ++ t) = u.withoutBlanks ++ essence t := by
  rw [essence, withoutEmptyParentheses_append_of_free h, withoutBlanks_append, essence]

theorem essence_blanks {blanks : Text} (h : blanks.blank = true) (t : Text) : essence (blanks ++ t) = essence t := by
  rw [essence_append_of_free (fun c hc => ne_of_isBracket (isBracket_of_blank h c hc)), withoutBlanks_eq_nil.mpr h]
  rfl

/-- A mention without parentheses, or with such as are not found to be empty. -/
theorem essence_mention (hid : Token.isMentionId id = true) (hscan : Pincite.scan after = (pincite, rest))
    (hnone : pinciteBeforeEmpty? (after ++ s) = none) : essence ('[' :: '@' :: (id ++ ']' :: after) ++ s) =
      withoutBlanks ("[@" ++ id ++ "]" ++ pincite.getD []) ++ essence (rest ++ s) := by
  obtain ⟨u, hafter, rfl, hfree⟩ := exists_of_scan hscan
  have hnot : mentionBeforeEmpty? ('[' :: '@' :: (id ++ ']' :: (after ++ s))) = none := by
    rw [mentionBeforeEmpty?_mention hid, hnone]
    rfl
  have hinner : ∀ c ∈ '@' :: (id ++ ']' :: u), c ≠ '[' := by
    simp only [List.forall_mem_cons, List.forall_mem_append]
    exact ⟨by decide, fun c hc => (Token.ne_of_isMentionId hid c hc).1, by decide,
      fun c hc => ne_of_isBracket (hfree c hc)⟩
  have hshape : '@' :: (id ++ ']' :: (after ++ s)) = '@' :: (id ++ ']' :: u) ++ (rest ++ s) := by simp [hafter]
  have hwhole : '[' :: '@' :: (id ++ ']' :: after) ++ s = '[' :: '@' :: (id ++ ']' :: (after ++ s)) := by simp
  have hprint : '[' :: ('@' :: (id ++ ']' :: u)) = "[@".toList ++ id ++ "]".toList ++ u := by simp
  rw [hwhole, essence, withoutEmptyParentheses_cons hnot, hshape, withoutEmptyParentheses_append_of_free hinner,
    ← List.cons_append, hprint]
  simp only [withoutBlanks_append, withoutBlanks_trimmed?, essence]

/-- A mention with empty parentheses. -/
theorem essence_mention_empty (hid : Token.isMentionId id = true) (hscan : Pincite.scan after = (pincite, rest))
    (ho : rest.trimStart = '(' :: opened) (he : enclosed? round opened = some (inside, r))
    (hblank : inside.blank = true) : essence ('[' :: '@' :: (id ++ ']' :: after) ++ s) =
      withoutBlanks ("[@" ++ id ++ "]" ++ pincite.getD []) ++ essence (r ++ s) := by
  obtain ⟨u, hafter, rfl, -⟩ := exists_of_scan hscan
  obtain ⟨lead, hrest, hlead⟩ := exists_trimStart rest
  obtain ⟨between, hbetween, hfound⟩ := (pinciteBeforeEmpty?_parenthesised (s := s) hscan ho he).1 hblank
  have hmention : mentionBeforeEmpty? ('[' :: '@' :: (id ++ ']' :: after) ++ s) =
      some ('[' :: '@' :: (id ++ ']' :: between), r ++ s) := by
    have hwhole : '[' :: '@' :: (id ++ ']' :: after) ++ s = '[' :: '@' :: (id ++ ']' :: (after ++ s)) := by simp
    rw [hwhole, mentionBeforeEmpty?_mention hid, hfound]
    rfl
  have hsame : between = u ++ lead := by
    rw [ho] at hrest
    rw [hafter, hrest, ← List.append_assoc] at hbetween
    exact (List.append_cancel_right hbetween).symm
  have hshape : '[' :: '@' :: (id ++ ']' :: between) = "[@".toList ++ id ++ "]".toList ++ u ++ lead := by simp [hsame]
  rw [essence, withoutEmptyParentheses_found hmention, hshape]
  simp only [withoutBlanks_append, withoutBlanks_trimmed?, withoutBlanks_eq_nil.mpr hlead, List.append_nil, essence]

/-- A mention with parentheses that hold something: what they hold is left without the blanks at its ends. -/
theorem essence_parenthesised (hid : Token.isMentionId id = true) (hscan : Pincite.scan after = (pincite, rest))
    (ho : rest.trimStart = '(' :: opened) (he : enclosed? round opened = some (inside, r))
    (hblank : inside.blank = false) : ∃ u, Closes u ∧ essence u = ')' :: essence (r ++ s) ∧
      essence ('[' :: '@' :: (id ++ ']' :: after) ++ s) =
        withoutBlanks ("[@" ++ id ++ "]" ++ pincite.getD []) ++ '(' :: essence (inside.trim ++ u) := by
  obtain ⟨before, hrest, hbefore⟩ := exists_trimStart rest
  obtain ⟨lead, trail, hinside, hlead, htrail⟩ := exists_trim inside
  have hnone := (pinciteBeforeEmpty?_parenthesised (s := s) hscan ho he).2 hblank
  refine ⟨trail ++ ')' :: (r ++ s), .closing _ htrail, ?_, ?_⟩
  · rw [essence_blanks htrail]
    exact essence_append_of_free (u := [')']) (by simp) _
  · have hshape : rest ++ s = before ++ ("(".toList ++ (lead ++ (inside.trim ++ (trail ++ ')' :: (r ++ s))))) := by
      conv_lhs => rw [hrest, ho, enclosed?_eq he, hinside]
      simp [round]
    rw [essence_mention hid hscan hnone, hshape, essence_blanks hbefore, essence_append_of_free (by simp),
      essence_blanks hlead]
    rfl

/-- A text without tokens that stands before what closes it. -/
theorem essence_append_of_not_occursIn {p : Text} (hp : Token.occursIn p = false) (hs : Closes s) :
    essence (p ++ s) = p.withoutBlanks ++ essence s := by
  simp only [Token.occursIn, Bool.or_eq_false_iff] at hp
  rw [essence, withoutEmptyParentheses_append, withoutBlanks_append, essence]
  intro v w hw
  cases w with
  | nil => exact hs.head?_ne
  | cons c w => exact not_head_of_holds hp.1.1 v (c :: w) hw

/-- A character that opens no mention. -/
theorem essence_cons {c : Char} {t : Text} (h : c = '[' → t.head? ≠ some '@') :
    essence (c :: t) = withoutBlanks [c] ++ essence t := by
  have hnone : mentionBeforeEmpty? (c :: t) = none := by
    have hopen : after? "[@" (c :: t) = none := by
      rw [Option.eq_none_iff_forall_ne_some]
      intro opened ho
      obtain ⟨rfl, rfl⟩ := List.cons.inj (after?_eq_some.mp ho)
      exact h rfl rfl
    rw [mentionBeforeEmpty?, hopen]
    rfl
  rw [essence, withoutEmptyParentheses_cons hnone, essence, ← withoutBlanks_append]
  rfl

/-- A token of another kind. -/
theorem essence_token {mark : Char} {name t : Text} (hm : mark ≠ '[' ∧ mark ≠ '@') (hname : ∀ c ∈ name, c ≠ '[') :
    essence ('[' :: mark :: (name ++ ']' :: t)) = withoutBlanks ('[' :: mark :: (name ++ [']'])) ++ essence t := by
  have hinner : ∀ c ∈ mark :: (name ++ [']']), c ≠ '[' := by
    simp only [List.forall_mem_cons, List.forall_mem_append]
    exact ⟨hm.1, hname, by decide, by simp⟩
  have hshape : mark :: (name ++ ']' :: t) = mark :: (name ++ [']']) ++ t := by simp
  have hhead : '[' = '[' → (mark :: (name ++ ']' :: t)).head? ≠ some '@' := by simpa using hm.2
  have hcons : '[' :: mark :: (name ++ [']']) = ['['] ++ mark :: (name ++ [']']) := rfl
  rw [essence_cons hhead, hshape, essence_append_of_free hinner, hcons, withoutBlanks_append ['['], List.append_assoc]

end Text

end Footcite
