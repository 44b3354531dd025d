import Footcite.Journal.Rules

/-!
# Abbreviating the name of a journal by rule

Phrases are put in first, one after another, each in all its places. Then each word loses commas and colons at its end
and is looked up among institutions, common words and places; words that are left out are dropped, and all others
stay.
-/

namespace Footcite.Text

/-- The name with every phrase abbreviated. -/
def putPhrases (name : Text) : Text := phraseRules.foldl (fun t (phrase, short) => t.replace phrase short) name

/-- The abbreviation of a word, from the first list that has it. -/
def wordAbbreviation? (word : Text) : Option Text :=
  institutionRules.get? word <|> wordRules.get? word <|> placeRules.get? word

/-- What a word of a name becomes; nothing for one that is left out. -/
def shortenWord (word : Text) : Option Text :=
  let bare := word.dropEndWhile fun c => c = ',' || c = ':'
  if bare.isEmpty then none
  else match wordAbbreviation? bare with
    | some short => some short
    | none => if droppedWords.contains bare then none else some bare

/-- The abbreviation of a name by rule. -/
def abbreviate (name : Text) : Text := join [' '] ((putPhrases name.collapse).words.filterMap shortenWord)

end Footcite.Text
