import Footcite.Proofs.Note.EmptyParentheses
import Footcite.Proofs.Note.Reads
import Footcite.Proofs.Note.Token

/-!
# Segments printed back

Segments are printed as they may be written in a body (`Segment.printAll`). Of a body that is read nothing is lost but
blanks, and parentheses that hold nothing else where they follow a mention and its pincite (`Note.print_of_read`).
-/

namespace Footcite

/-! ## Printing -/

/-- A mention as it is written, without what is in parentheses after it. -/
def Mention.print (m : Mention) : Text := "[@" ++ m.source ++ "]" ++ m.pincite.getD []

/-- A text in parentheses, if there is one. -/
def Text.inParentheses : Option Text → Text
  | some p => "(" ++ p ++ ")"
  | none => []

mutual

/-- A segment as it is written. -/
def Segment.print : Segment → Text
  | .text t => t
  | .mention m [] => m.print ++ Text.inParentheses m.parenthetical
  | .mention m inner => m.print ++ Text.inParentheses (some (Segment.printAll inner))
  | .breaker _ => "[$]"
  | .anchor ref | .use ref => "[?" ++ ref ++ "]"

/-- Segments as they are written, one after another. -/
def Segment.printAll : List Segment → Text
  | [] => []
  | s :: rest => s.print ++ Segment.printAll rest

end

namespace Segment

open Text

variable {opening : Bool} {ordinal n : Nat} {body : Text} {segments : List Segment}

/-! ## What is printed -/

theorem withoutBlanks_inParentheses (p t : Text) :
    (Text.inParentheses (some p)).withoutBlanks ++ t = '(' :: (p.withoutBlanks ++ ')' :: t) := by
  simp only [Text.inParentheses, withoutBlanks_append, List.append_assoc]
  rfl

/-- A mention without segments in its parenthetical. -/
theorem withoutBlanks_printAll_mention (m : Mention) (segments : List Segment) :
    (printAll (.mention m [] :: segments)).withoutBlanks =
      m.print.withoutBlanks ++
        ((Text.inParentheses m.parenthetical).withoutBlanks ++ (printAll segments).withoutBlanks) := by
  simp only [printAll, print, withoutBlanks_append, List.append_assoc]

/-- A mention with segments in its parenthetical. -/
theorem print_nested (m : Mention) {inner : List Segment} (hi : inner ≠ []) :
    print (.mention m inner) = m.print ++ Text.inParentheses (some (printAll inner)) := by
  cases inner with
  | nil => exact absurd rfl hi
  | cons s inner => rfl

theorem withoutBlanks_printAll_nested (m : Mention) {inner : List Segment} (hi : inner ≠ []) (segments : List Segment) :
    (printAll (.mention m inner :: segments)).withoutBlanks =
      m.print.withoutBlanks ++ '(' :: ((printAll inner).withoutBlanks ++ ')' :: (printAll segments).withoutBlanks) := by
  rw [printAll, print_nested m hi, withoutBlanks_append, withoutBlanks_append, List.append_assoc,
    withoutBlanks_inParentheses]

/-! ## What reading leaves -/

/-- Nothing but blanks comes before an anchor. -/
theorem Reads.opening_of_anchor {ref : Text} {rest : List Segment}
    (h : Reads opening ordinal body (.anchor ref :: rest) n) : opening = true := by
  generalize hs : Segment.anchor ref :: rest = segs at h
  induction h with
  | @char opening _ _ _ d _ _ segments _ _ ih =>
    cases segments with
    | nil => cases hs
    | cons s segments =>
      cases s with
      | anchor ref' =>
        cases hs
        exact (Bool.and_eq_true_iff.mp (ih rfl)).1
      | text _ => cases hs
      | mention _ _ => cases hs
      | breaker _ => cases hs
      | use _ => cases hs
  | @reference opening _ _ _ _ _ _ _ _ _ _ =>
    cases opening with
    | true => rfl
    | false => cases hs
  | done => cases hs
  | mention => cases hs
  | nested => cases hs
  | breaker => cases hs

/-- A character before segments is printed, unless it comes before an anchor. -/
theorem withoutBlanks_printAll_consChar (c : Char) (segments : List Segment)
    (h : ∀ ref rest, segments = .anchor ref :: rest → isBlank c = true) :
    (printAll (consChar c segments)).withoutBlanks = Text.withoutBlanks [c] ++ (printAll segments).withoutBlanks := by
  unfold consChar
  split
  · simp only [printAll, print, ← Text.withoutBlanks_append]
    rfl
  · next ref rest =>
    have hc : Text.withoutBlanks [c] = [] := Text.withoutBlanks_eq_nil.mpr (by simpa [Text.blank] using h ref rest rfl)
    rw [hc, List.nil_append]
  · rw [← Text.withoutBlanks_append]
    rfl

open Text in
/-- **What is read of a body is printed back**, whatever the body stands before. -/
theorem Reads.printed (h : Reads opening ordinal body segments n) : ∀ s : Text, Closes s →
    essence (body ++ s) = (printAll segments).withoutBlanks ++ essence s := by
  induction h with
  | done => exact fun s _ => rfl
  | @char _ _ _ c d rest r segments ht hr ih =>
    intro s hs
    have hblank (ref : Text) (others : List Segment) (ha : segments = .anchor ref :: others) : isBlank d = true := by
      subst ha
      exact (Bool.and_eq_true_iff.mp hr.opening_of_anchor).2
    cases Token.heads_of_read ht with
    | char hopens =>
      rw [List.cons_append, essence_cons, ih s hs, withoutBlanks_printAll_consChar _ segments hblank, List.append_assoc]
      intro hd hat
      cases rest with
      | nil => exact hs.head?_ne hat
      | cons mark r =>
        obtain rfl : mark = '@' := by simpa using hat
        exact absurd (hopens '@' r hd rfl) (by decide)
  | @mention _ _ _ _ _ _ source pincite parenthetical _ ht hp _ ih =>
    intro s hs
    rw [withoutBlanks_printAll_mention, List.append_assoc, List.append_assoc, ← ih s hs]
    cases Token.heads_of_read ht with
    | bare hid hscan hno => exact essence_mention hid hscan (pinciteBeforeEmpty?_bare hscan hno hs)
    | @parenthesised _ _ _ _ inside _ _ hid hscan ho he =>
      cases hblank : inside.blank with
      | true =>
        rw [essence_mention_empty hid hscan ho he hblank, trimmed?_eq_none.mpr hblank]
        rfl
      | false =>
        have htrim := trimmed?_eq_trim hblank
        obtain ⟨u, hu, hclosed, hmention⟩ := essence_parenthesised (s := s) hid hscan ho he hblank
        rw [hmention, essence_append_of_not_occursIn (hp _ htrim) hu, hclosed, htrim, withoutBlanks_inParentheses]
        rfl
  | @nested _ _ _ _ _ _ _ source p pincite inner _ ht hp hi _ ihp ih =>
    intro s hs
    have hinner : inner ≠ [] := hi.ne_nil fun hnil => by
      rw [hnil] at hp
      revert hp
      decide
    rw [withoutBlanks_printAll_nested _ hinner]
    conv_rhs => simp only [List.append_assoc, List.cons_append]
    rw [← ih s hs]
    generalize hparenthetical : some p = parenthetical at ht
    cases Token.heads_of_read ht with
    | bare => cases hparenthetical
    | @parenthesised _ _ _ _ inside _ _ hid hscan ho he =>
      cases hblank : inside.blank with
      | true => simp [trimmed?_eq_none.mpr hblank] at hparenthetical
      | false =>
        obtain rfl : p = inside.trim := by simpa [trimmed?_eq_trim hblank] using hparenthetical
        obtain ⟨u, hu, hclosed, hmention⟩ := essence_parenthesised (s := s) hid hscan ho he hblank
        rw [hmention, ihp u hu, hclosed, ← hparenthetical]
        rfl
  | breaker ht _ ih =>
    intro s hs
    cases Token.heads_of_read ht with
    | breaker after =>
      obtain ⟨lead, hafter, hlead⟩ := exists_trimStart after
      have hrest : essence (after ++ s) = essence (after.trimStart ++ s) := by
        conv_lhs => rw [hafter, List.append_assoc]
        exact essence_blanks hlead _
      rw [printAll, withoutBlanks_append, List.append_assoc, ← ih s hs, ← hrest]
      exact @essence_token '$' [] (after ++ s) (by decide) (by simp)
  | @reference opening _ _ _ _ _ id _ ht _ ih =>
    intro s hs
    cases Token.heads_of_read ht with
    | @reference _ after hid =>
      have hprint : print (if opening then .anchor id else .use id) = '[' :: '?' :: (id ++ [']']) := by
        cases opening <;> rfl
      rw [printAll, withoutBlanks_append, List.append_assoc, ← ih s hs, hprint,
        ← essence_token (by decide) fun c hc => (Token.ne_of_isReferenceId hid c hc).1]
      simp

/-! ## Notes -/

mutual

theorem print_markString : ∀ s : Segment, s.markString.print = s.print
  | .text _ => rfl
  | .mention m [] => rfl
  | .mention m (s :: inner) => by
    have := printAll_markAll (s :: inner)
    simp only [markString, markAll, print] at this ⊢
    rw [this]
    rfl
  | .breaker _ => rfl
  | .anchor _ => rfl
  | .use _ => rfl

/-- Marks are not printed. -/
theorem printAll_markAll : ∀ segments : List Segment, printAll (markAll segments) = printAll segments
  | [] => rfl
  | s :: rest => by rw [markAll, printAll, printAll, print_markString s, printAll_markAll rest]

end

end Segment

/-- **Reading loses nothing but layout**: the segments of a note, printed back, are its body up to blanks and to the
empty parentheses after mentions. -/
theorem Note.print_of_read {position number : Int} {body : Text} {n : Note} (h : read position number body = .ok n) :
    (Segment.printAll n.segments).withoutBlanks = body.withoutEmptyParentheses.withoutBlanks := by
  obtain ⟨segments, next, hreads, hs⟩ := Note.exists_reads h
  have hmarked : Segment.printAll n.segments = Segment.printAll segments := by
    rcases hs with hs | hs
    · rw [hs]
    · rw [hs, Segment.printAll_markAll]
  have hempty : Text.withoutEmptyParentheses [] = [] := by rw [Text.withoutEmptyParentheses]
  have hprinted := hreads.printed [] .done
  rw [hmarked]
  simpa [Text.essence, hempty] using hprinted.symm

/-- A note with an anchor after blanks, a mention inside the parenthetical of another, and empty parentheses after the
inner mention and after a last one. -/
theorem Note.print_of_read_nested : ∃ n,
    Note.read 1 1 " [?here] See [@a] at 3 n.2 ( quoting [@b] 5 ( ) and [?here]); [@a] () [$] But (not) so." = .ok n ∧
      (Segment.printAll n.segments).withoutBlanks =
        "[?here]See[@a]at3n.2(quoting[@b]5and[?here]);[@a][$]But(not)so.".toList := by
  obtain ⟨n, hn, -⟩ := Except.exists_ok_that (p := fun _ => true)
    (x := Note.read 1 1 " [?here] See [@a] at 3 n.2 ( quoting [@b] 5 ( ) and [?here]); [@a] () [$] But (not) so.")
    (by decide +kernel)
  exact ⟨n, hn, (Note.print_of_read hn).trans (by decide +kernel)⟩

end Footcite
