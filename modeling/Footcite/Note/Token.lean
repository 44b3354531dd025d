import Footcite.Failure
import Footcite.Note.Enclosed
import Footcite.Pincite.Grammar

/-!
# Tokens of a note

What the body of a note begins with: a token in square brackets, which for a mention takes in the pincite and the
parenthetical after it, or else a single character. What follows a token is shorter than the body
(`Token.read_length`), and so is a parenthetical (`Token.read_parenthetical_length`).
-/

namespace Footcite

/-- What a body begins with. -/
inductive Token
  | char (c : Char)
  | mention (source : Text) (pincite parenthetical : Option Text)
  | breaker
  | reference (id : Text)

namespace Token

/-- A token with the text after it, or a malformed token and what is wrong with it. -/
abbrev Reading := Except (Text × TokenFault) (Token × Text)

/-- The id of a mention has neither blanks nor brackets, at signs, commas and semicolons. -/
def isMentionId (id : Text) : Bool := !id.isEmpty && id.all fun c => !isBlank c && !"[]@;,".toList.contains c

/-- The name of a cross-reference has neither blanks nor brackets and question marks. -/
def isReferenceId (id : Text) : Bool := !id.isEmpty && id.all fun c => !isBlank c && !"[]?".toList.contains c

/-- The rest of a mention, after its bracket: a pincite and a parenthetical, if they are there. -/
def mentionOf (source after : Text) : Reading :=
  let (pincite, rest) := Pincite.scan after
  match rest.trimStart with
  | '(' :: opened =>
    match enclosed? round opened with
    | some (inside, rest) => .ok (.mention source pincite inside.trimmed?, rest)
    | none => .error (Text.trim ('(' :: opened), .openParenthesis)
  | _ => .ok (.mention source pincite none, rest)

/-- The token of a bracket that holds the mark and the inside. -/
def bracketed (mark : Char) (inside after : Text) : Reading :=
  let whole : Text := '[' :: mark :: inside ++ [']']
  if mark = '@' then
    if isMentionId inside then mentionOf inside after
    else .error (whole, if inside.contains '@' then .severalIds else .notAnId)
  else if mark = '$' then
    if inside.isEmpty then .ok (.breaker, after.trimStart) else .error (whole, .notABreaker)
  else
    if isReferenceId inside then .ok (.reference inside, after) else .error (whole, .notAReference)

/-- The marks that a token has after its opening bracket. -/
def isMark (c : Char) : Bool := c = '@' || c = '$' || c = '?'

/-- Reads what a body with a given first character begins with. -/
def read (c : Char) (rest : Text) : Reading :=
  match rest with
  | mark :: opened =>
    if c = '[' && isMark mark then
      match enclosed? square opened with
      | some (inside, after) => bracketed mark inside after
      | none => .error (Text.trim (c :: rest), .openBracket)
    else .ok (.char c, rest)
  | [] => .ok (.char c, [])

/-- Whether a text holds the opening of a token. -/
def occursIn (t : Text) : Bool := Text.holds "[@" t || Text.holds "[$" t || Text.holds "[?" t

/-! ## What follows is shorter -/

theorem enclosed?_length {b : Brackets} {t inside rest : Text} (h : enclosed? b t = some (inside, rest)) :
    inside.length < t.length ∧ rest.length < t.length := by
  have := congrArg List.length (enclosed?_eq h)
  simp at this
  omega

/-- A bound on the parenthetical of a token. -/
def Fits (n : Nat) : Token → Prop
  | mention _ _ (some p) => p.length ≤ n
  | _ => True

theorem mentionOf_length {source after r : Text} {tok : Token} (h : mentionOf source after = .ok (tok, r)) :
    r.length ≤ after.length ∧ tok.Fits after.length := by
  have h₁ := Pincite.scan_length after
  have h₂ := Text.trimStart_length (Pincite.scan after).2
  simp only [mentionOf] at h
  split at h
  · next opened ho =>
    rw [ho, List.length_cons] at h₂
    split at h
    · next inside rest he =>
      cases h
      have h₃ := enclosed?_length he
      refine ⟨by omega, ?_⟩
      unfold Fits
      split
      · next hp =>
        have := Text.trimmed?_length (Token.mention.inj hp).2.2
        omega
      · trivial
    · cases h
  · cases h
    exact ⟨h₁, trivial⟩

theorem bracketed_length {mark : Char} {inside after r : Text} {tok : Token}
    (h : bracketed mark inside after = .ok (tok, r)) : r.length ≤ after.length ∧ tok.Fits after.length := by
  simp only [bracketed] at h
  split at h
  · split at h
    · exact mentionOf_length h
    · cases h
  · split at h
    · split at h
      · cases h
        exact ⟨Text.trimStart_length after, trivial⟩
      · cases h
    · split at h
      · cases h
        exact ⟨Nat.le_refl _, trivial⟩
      · cases h

theorem read_fits {c : Char} {rest r : Text} {tok : Token} (h : read c rest = .ok (tok, r)) :
    r.length ≤ rest.length ∧ tok.Fits rest.length := by
  simp only [read] at h
  split at h
  · next mark opened =>
    split at h
    · split at h
      · next inside after he =>
        have h₁ := enclosed?_length he
        have ⟨h₂, h₃⟩ := bracketed_length h
        simp only [List.length_cons]
        refine ⟨by omega, ?_⟩
        revert h₃
        unfold Fits
        split
        · intro h₃; omega
        · exact id
      · cases h
    · cases h
      exact ⟨Nat.le_refl _, trivial⟩
  · cases h
    exact ⟨Nat.le_refl _, trivial⟩

theorem read_length {c : Char} {rest r : Text} {tok : Token} (h : read c rest = .ok (tok, r)) :
    r.length < (c :: rest).length := Nat.lt_succ_of_le (read_fits h).1

theorem read_parenthetical_length {c : Char} {rest r source p : Text} {pin : Option Text}
    (h : read c rest = .ok (.mention source pin (some p), r)) : p.length < (c :: rest).length :=
  Nat.lt_succ_of_le (read_fits h).2

end Token

end Footcite
