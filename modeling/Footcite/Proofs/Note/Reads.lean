import Footcite.Note.Body
import Footcite.Proofs.Gives

/-!
# How the body of a note is read

The rules by which a body comes apart into segments (`Segment.Reads`): what `Segment.readFrom` gives when nothing in the
body is malformed (`Segment.reads_of_readFrom`). The mentions of a note are marked as one of several exactly when it
holds another, at every depth (`Note.inString_iff`).
-/

namespace Footcite

namespace Segment

/-! ## Step by step -/

section Equations

variable {note : Int} {opening : Bool} {ordinal : Nat} {c : Char} {rest r source id token p : Text}
  {pincite : Option Text} {fault : TokenFault} {d : Char}

theorem readFrom_nil : readFrom note opening ordinal [] = .ok ([], ordinal) := by rw [readFrom]

theorem readFrom_malformed (h : Token.read c rest = .error (token, fault)) :
    readFrom note opening ordinal (c :: rest) = .error (.malformed token fault note) := by
  rw [readFrom]
  split <;> simp_all

theorem readFrom_char (h : Token.read c rest = .ok (.char d, r)) :
    readFrom note opening ordinal (c :: rest) =
      readFrom note (opening && isBlank d) ordinal r >>= fun (segments, n) => .ok (consChar d segments, n) := by
  rw [readFrom]
  split <;> simp_all

theorem readFrom_mention (h : Token.read c rest = .ok (.mention source pincite none, r)) :
    readFrom note opening ordinal (c :: rest) = readFrom note false (ordinal + 1) r >>= fun (segments, n) =>
      .ok (.mention { source, ordinal, pincite } [] :: segments, n) := by
  rw [readFrom]
  split <;> simp_all

theorem readFrom_parenthetical (h : Token.read c rest = .ok (.mention source pincite (some p), r)) :
    readFrom note opening ordinal (c :: rest) =
      (if Token.occursIn p then readFrom note false (ordinal + 1) p else .ok ([], ordinal + 1)) >>= fun (inner, m) =>
        readFrom note false m r >>= fun (segments, n) =>
          .ok (.mention { source, ordinal, pincite, parenthetical := some p } inner :: segments, n) := by
  rw [readFrom]
  split <;> simp_all
  split <;> rfl

theorem readFrom_breaker (h : Token.read c rest = .ok (.breaker, r)) :
    readFrom note opening ordinal (c :: rest) = readFrom note false (ordinal + 1) r >>= fun (segments, n) =>
      .ok (.breaker ordinal :: segments, n) := by
  rw [readFrom]
  split <;> simp_all

theorem readFrom_reference (h : Token.read c rest = .ok (.reference id, r)) :
    readFrom note opening ordinal (c :: rest) = readFrom note false ordinal r >>= fun (segments, n) =>
      .ok ((if opening then .anchor id else .use id) :: segments, n) := by
  rw [readFrom]
  split <;> simp_all

end Equations

end Segment

/-! ## The rules -/

/-- **The reading of a body**, from a free ordinal on, as segments and the next free ordinal. The flag says that only
blanks of the note came before. -/
inductive Segment.Reads : Bool → Nat → Text → List Segment → Nat → Prop
  | done (opening : Bool) (ordinal : Nat) : Reads opening ordinal [] [] ordinal
  | char {opening : Bool} {ordinal n : Nat} {c d : Char} {rest r : Text} {segments : List Segment} :
      Token.read c rest = .ok (.char d, r) → Reads (opening && isBlank d) ordinal r segments n →
      Reads opening ordinal (c :: rest) (consChar d segments) n
  /-- A mention whose parenthetical, if there is one, holds no tokens. -/
  | mention {opening : Bool} {ordinal n : Nat} {c : Char} {rest r source : Text} {pincite parenthetical : Option Text}
      {segments : List Segment} :
      Token.read c rest = .ok (.mention source pincite parenthetical, r) →
      (∀ p, parenthetical = some p → Token.occursIn p = false) → Reads false (ordinal + 1) r segments n →
      Reads opening ordinal (c :: rest) (.mention { source, ordinal, pincite, parenthetical } [] :: segments) n
  /-- A mention whose parenthetical holds tokens. -/
  | nested {opening : Bool} {ordinal m n : Nat} {c : Char} {rest r source p : Text} {pincite : Option Text}
      {inner segments : List Segment} :
      Token.read c rest = .ok (.mention source pincite (some p), r) → Token.occursIn p = true →
      Reads false (ordinal + 1) p inner m → Reads false m r segments n →
      Reads opening ordinal (c :: rest) (.mention { source, ordinal, pincite, parenthetical := some p } inner :: segments) n
  | breaker {opening : Bool} {ordinal n : Nat} {c : Char} {rest r : Text} {segments : List Segment} :
      Token.read c rest = .ok (.breaker, r) → Reads false (ordinal + 1) r segments n →
      Reads opening ordinal (c :: rest) (.breaker ordinal :: segments) n
  | reference {opening : Bool} {ordinal n : Nat} {c : Char} {rest r id : Text} {segments : List Segment} :
      Token.read c rest = .ok (.reference id, r) → Reads false ordinal r segments n →
      Reads opening ordinal (c :: rest) ((if opening then .anchor id else .use id) :: segments) n

/-- A body that is read comes apart by the rules. -/
theorem Segment.reads_of_readFrom {note : Int} {opening : Bool} {ordinal n : Nat} {body : Text} {segments : List Segment}
    (h : readFrom note opening ordinal body = .ok (segments, n)) : Reads opening ordinal body segments n := by
  fun_induction readFrom note opening ordinal body generalizing segments n with
  | case1 opening ordinal =>
    cases h
    exact .done opening ordinal
  | case2 => cases h
  | case3 opening ordinal c rest d r ht ih =>
    obtain ⟨⟨segs, m⟩, hr, he⟩ := Except.bind_ok h
    cases he
    exact .char ht (ih hr)
  | case4 opening ordinal c rest source pincite r ht ih =>
    obtain ⟨⟨segs, m⟩, hr, he⟩ := Except.bind_ok h
    cases he
    exact .mention ht (by simp) (ih hr)
  | case5 opening ordinal c rest source pincite p r ht _ hp ih =>
    rename_i ihp
    obtain ⟨⟨inner, m⟩, hi, h⟩ := Except.bind_ok h
    obtain ⟨⟨segs, m'⟩, hr, he⟩ := Except.bind_ok h
    cases he
    exact .nested ht hp (ihp hi) (ih m hr)
  | case6 opening ordinal c rest source pincite p r ht _ hp =>
    rename_i ih
    obtain ⟨⟨inner, m⟩, hi, h⟩ := Except.bind_ok h
    obtain ⟨⟨segs, m'⟩, hr, he⟩ := Except.bind_ok h
    cases hi
    cases he
    refine .mention ht (fun q hq => ?_) (ih _ hr)
    cases hq
    simpa using hp
  | case7 opening ordinal c rest r ht ih =>
    obtain ⟨⟨segs, m⟩, hr, he⟩ := Except.bind_ok h
    cases he
    exact .breaker ht (ih hr)
  | case8 opening ordinal c rest id r ht ih =>
    obtain ⟨⟨segs, m⟩, hr, he⟩ := Except.bind_ok h
    cases he
    exact .reference ht (ih hr)

/-- What comes apart by the rules is read so, whatever the number of the note. -/
theorem Segment.readFrom_of_reads {note : Int} {opening : Bool} {ordinal n : Nat} {body : Text}
    {segments : List Segment} (h : Reads opening ordinal body segments n) :
    readFrom note opening ordinal body = .ok (segments, n) := by
  induction h with
  | done => exact readFrom_nil
  | char ht _ ih =>
    rw [readFrom_char ht, ih]
    rfl
  | @mention _ _ _ _ _ _ _ _ parenthetical _ ht hp _ ih =>
    cases parenthetical with
    | none =>
      rw [readFrom_mention ht, ih]
      rfl
    | some p =>
      rw [readFrom_parenthetical ht, if_neg (by simp [hp p rfl])]
      show (readFrom note false _ _ >>= _) = _
      rw [ih]
      rfl
  | nested ht hp _ _ ihi ih =>
    rw [readFrom_parenthetical ht, if_pos hp, ihi]
    show (readFrom note false _ _ >>= _) = _
    rw [ih]
    rfl
  | breaker ht _ ih =>
    rw [readFrom_breaker ht, ih]
    rfl
  | reference ht _ ih =>
    rw [readFrom_reference ht, ih]
    rfl

theorem Segment.consChar_ne_nil (c : Char) (segments : List Segment) : consChar c segments ≠ [] := by
  unfold consChar
  split <;> simp

/-- Something is read of a body that holds anything. -/
theorem Segment.Reads.ne_nil {opening : Bool} {ordinal n : Nat} {body : Text} {segments : List Segment}
    (h : Reads opening ordinal body segments n) (hb : body ≠ []) : segments ≠ [] := by
  cases h with
  | done => exact absurd rfl hb
  | char => exact consChar_ne_nil _ _
  | mention => simp
  | nested => simp
  | breaker => simp
  | reference => simp

/-- What is read of a body, and the note that comes of it by marking. -/
theorem Note.exists_reads {position number : Int} {body : Text} {n : Note}
    (h : read position number body = .ok n) : ∃ segments next,
    Segment.Reads true 0 body segments next ∧
      (n.segments = segments ∨ n.segments = Segment.markAll segments) := by
  obtain ⟨⟨segments, next⟩, hr, he⟩ := Except.bind_ok h
  cases he
  refine ⟨segments, next, Segment.reads_of_readFrom hr, ?_⟩
  simp only
  split
  · exact .inr rfl
  · exact .inl rfl

/-! ## Marks of several mentions -/

/-- A character before segments is no mention. -/
theorem Segment.allMentions_consChar (c : Char) (segments : List Segment) :
    allMentions (consChar c segments) = allMentions segments := by
  unfold consChar
  split <;> rfl

/-- What is read is not marked yet. -/
theorem Segment.Reads.unmarked {opening : Bool} {ordinal n : Nat} {body : Text} {segments : List Segment}
    (h : Reads opening ordinal body segments n) : ∀ m ∈ allMentions segments, m.inString = false := by
  induction h with
  | done => simp [allMentions]
  | char _ _ ih => rwa [allMentions_consChar]
  | mention _ _ _ ih =>
    intro m hm
    simp only [allMentions, mentions, List.cons_append, List.nil_append, List.mem_cons] at hm
    rcases hm with rfl | hm
    · rfl
    · exact ih m hm
  | nested _ _ _ _ ihi ih =>
    intro m hm
    simp only [allMentions, mentions, List.cons_append, List.mem_cons, List.mem_append] at hm
    rcases hm with rfl | hm | hm
    · rfl
    · exact ihi m hm
    · exact ih m hm
  | breaker _ _ ih => exact ih
  | reference _ _ ih =>
    intro m hm
    split at hm <;> exact ih m hm

mutual

theorem Segment.mentions_markString :
    ∀ s : Segment, s.markString.mentions = s.mentions.map fun m => { m with inString := true }
  | .text _ => rfl
  | .mention m inner => by
    simp only [markString, mentions, List.map_cons]
    rw [Segment.allMentions_markAll inner]
  | .breaker _ => rfl
  | .anchor _ => rfl
  | .use _ => rfl

/-- Marking marks every mention and leaves it as it is otherwise. -/
theorem Segment.allMentions_markAll : ∀ segments : List Segment,
    allMentions (markAll segments) = (allMentions segments).map fun m => { m with inString := true }
  | [] => rfl
  | s :: rest => by
    simp only [markAll, allMentions, List.map_append]
    rw [Segment.mentions_markString s, Segment.allMentions_markAll rest]

end

/-- **A mention is marked exactly when its note holds another**, at whatever depth. -/
theorem Note.inString_iff {position number : Int} {body : Text} {n : Note} (h : Note.read position number body = .ok n) :
    ∀ m ∈ n.mentions, m.inString = true ↔ n.mentions.length ≠ 1 := by
  obtain ⟨⟨segments, next⟩, hr, he⟩ := Except.bind_ok h
  cases he
  have hu := (Segment.reads_of_readFrom hr).unmarked
  intro m hm
  have hpos := List.length_pos_of_mem hm
  simp only [mentions] at hm hpos ⊢
  by_cases hs : 1 < (Segment.allMentions segments).length
  · simp only [if_pos hs, Segment.allMentions_markAll, List.length_map] at hm hpos ⊢
    obtain ⟨m', _, rfl⟩ := List.mem_map.mp hm
    simp only [true_iff]
    omega
  · simp only [if_neg hs] at hm hpos ⊢
    simp only [hu m hm, Bool.false_eq_true, false_iff]
    omega

/-- A note is at the position and has the number that it is read for. -/
theorem Note.read_place {position number : Int} {body : Text} {n : Note} (h : Note.read position number body = .ok n) :
    n.position = position ∧ n.number = number := by
  obtain ⟨⟨segments, next⟩, _, he⟩ := Except.bind_ok h
  cases he
  exact ⟨rfl, rfl⟩

/-- A body is read as the same note at any other place. -/
theorem Note.read_elsewhere {position number : Int} {body : Text} {n : Note} (h : read position number body = .ok n)
    (position' number' : Int) :
    read position' number' body = .ok { n with position := position', number := number' } := by
  obtain ⟨⟨segments, next⟩, hr, he⟩ := Except.bind_ok h
  cases he
  rw [read, Segment.readFrom_of_reads (Segment.reads_of_readFrom hr)]
  rfl

end Footcite
