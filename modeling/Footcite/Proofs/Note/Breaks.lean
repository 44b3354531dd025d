import Footcite.Proofs.Note.Reads

/-!
# Bodies that are not read

A body that is not read has a malformed token (`Segment.breaks_of_readFrom`): the first in reading order
(`Segment.Breaks`), where what a parenthetical holds comes before what follows it. Such a body does not come apart into
segments (`Segment.Breaks.not_reads`).
-/

namespace Footcite

namespace Segment

/-- **The first malformed token of a body** in reading order, and what is wrong with it. A parenthetical with tokens is
read before what follows it. -/
inductive Breaks : Text → Text → TokenFault → Prop
  | here {c : Char} {rest token : Text} {fault : TokenFault} :
      Token.read c rest = .error (token, fault) → Breaks (c :: rest) token fault
  | within {c : Char} {rest r source p token : Text} {pincite : Option Text} {fault : TokenFault} :
      Token.read c rest = .ok (.mention source pincite (some p), r) → Token.occursIn p = true →
      Breaks p token fault → Breaks (c :: rest) token fault
  | after {c : Char} {rest r token : Text} {tok : Token} {fault : TokenFault} :
      Token.read c rest = .ok (tok, r) →
      (∀ source pincite p, tok = .mention source pincite (some p) → Token.occursIn p = true →
        ∃ opening ordinal inner next, Reads opening ordinal p inner next) →
      Breaks r token fault → Breaks (c :: rest) token fault

/-- A body that is not read has a malformed token. -/
theorem breaks_of_readFrom {note : Int} {opening : Bool} {ordinal : Nat} {body : Text} {e : Failure}
    (h : readFrom note opening ordinal body = .error e) :
    ∃ token fault, Breaks body token fault ∧ e = .malformed token fault note := by
  fun_induction readFrom note opening ordinal body with
  | case1 => cases h
  | case2 opening ordinal c rest token fault ht =>
    cases h
    exact ⟨token, fault, .here ht, rfl⟩
  | case3 _ _ _ _ _ _ ht ih | case4 _ _ _ _ _ _ _ ht ih | case7 _ _ _ _ _ ht ih | case8 _ _ _ _ _ _ ht ih =>
    rcases Except.bind_error h with h | ⟨_, _, h⟩
    · obtain ⟨token, fault, hb, rfl⟩ := ih h
      exact ⟨token, fault, .after ht (fun _ _ _ he => by cases he) hb, rfl⟩
    · cases h
  | case5 _ _ _ _ _ _ _ _ ht _ hp ih ihp =>
    rcases Except.bind_error h with h | ⟨⟨inner, m⟩, hi, h⟩
    · obtain ⟨token, fault, hb, rfl⟩ := ihp h
      exact ⟨token, fault, .within ht hp hb, rfl⟩
    · rcases Except.bind_error h with h | ⟨_, _, h⟩
      · obtain ⟨token, fault, hb, rfl⟩ := ih m h
        refine ⟨token, fault, .after ht (fun source pincite p he _ => ?_) hb, rfl⟩
        cases he
        exact ⟨_, _, inner, m, reads_of_readFrom hi⟩
      · cases h
  | case6 _ ordinal _ _ _ _ _ _ ht _ hp ih =>
    rcases Except.bind_error h with h | ⟨⟨inner, m⟩, hi, h⟩
    · cases h
    · rcases Except.bind_error h with h | ⟨_, _, h⟩
      · obtain ⟨token, fault, hb, rfl⟩ := ih m h
        refine ⟨token, fault, .after ht (fun source pincite p he hp' => ?_) hb, rfl⟩
        cases he
        exact absurd hp' hp
      · cases h

/-- **A body with a malformed token does not come apart into segments.** -/
theorem Breaks.not_reads {body token : Text} {fault : TokenFault} (h : Breaks body token fault) {opening : Bool}
    {ordinal n : Nat} {segments : List Segment} : ¬Reads opening ordinal body segments n := by
  induction h generalizing opening ordinal n segments with
  | here ht =>
    intro hr
    cases hr <;> simp_all
  | within ht hp _ ih =>
    intro hr
    cases hr with
    | nested ht' _ hi _ =>
      rw [ht] at ht'
      cases ht'
      exact ih hi
    | mention ht' hno =>
      rw [ht] at ht'
      cases ht'
      rw [hno _ rfl] at hp
      cases hp
    | char ht' | breaker ht' | reference ht' =>
      rw [ht] at ht'
      cases ht'
  | after ht _ _ ih =>
    intro hr
    cases hr with
    | char ht' hr | mention ht' _ hr | nested ht' _ _ hr | breaker ht' hr | reference ht' hr =>
      rw [ht] at ht'
      cases ht'
      exact ih hr

end Segment

end Footcite
