import Footcite.Text.Letter

/-!
# Recognisers

A recogniser tells in which ways a text can begin with something: it gives what is left of the text after each of
them, the preferred way first. Choices prefer the first alternative, repetitions the longest run. So the first text
that a recogniser gives is what is left after the match that a search with backtracking would settle on.
-/

namespace Footcite

/-- What is left of a text after each match at its beginning, the preferred match first. -/
abbrev Recogniser := Text → List Text

namespace Recogniser

/-- One character of a class. -/
def one (p : Char → Bool) : Recogniser
  | [] => []
  | c :: rest => if p c then [rest] else []

/-- One of the characters of a text. -/
def oneOf (cs : Text) : Recogniser := one cs.contains

/-- The letters and signs of a text, letters in either case. -/
def word : Text → Recogniser
  | [], t => [t]
  | _ :: _, [] => []
  | l :: ls, c :: rest => if sameLetter l c then word ls rest else []

/-- One thing and then another. -/
def next (a b : Recogniser) : Recogniser := fun t => (a t).flatMap b

/-- One thing, or else another. -/
def or (a b : Recogniser) : Recogniser := fun t => a t ++ b t

/-- The first of several alternatives. -/
def firstOf (alternatives : List Recogniser) : Recogniser := fun t => alternatives.flatMap (· t)

/-- A thing, or nothing. -/
def optional (a : Recogniser) : Recogniser := a.or fun t => [t]

/-- At most so many of a thing. -/
def upTo (a : Recogniser) : Nat → Recogniser
  | 0 => fun t => [t]
  | n + 1 => (a.next (upTo a n)).optional

/-- Any number of a thing that takes at least one character. -/
def many (a : Recogniser) : Recogniser := fun t => upTo a t.length t

/-- At least one of a thing that takes at least one character. -/
def many1 (a : Recogniser) : Recogniser := a.next a.many

/-- Nothing, where the text goes on as the condition says. -/
def ahead (p : Text → Bool) : Recogniser := fun t => if p t then [t] else []

/-- Any number of blanks. -/
def blanks : Recogniser := many (one isBlank)

/-- At least one blank. -/
def gap : Recogniser := many1 (one isBlank)

end Recogniser

end Footcite
