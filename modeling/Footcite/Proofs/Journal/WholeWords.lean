import Footcite.Journal.ByRule
import Footcite.Proofs.Table
import Footcite.Proofs.Text.Replaced
import Footcite.Proofs.Text.Words

/-!
# Abbreviating whole words

A word is abbreviated without the commas and colons at its end (`Text.bareWords`), and a phrase that stands between the
ends of words (`Text.StandsWhole`) is put in for whole words (`Text.Put.bareWords`). So a name in which phrases stand so
keeps its words or has them from the lists of abbreviations; in any case no word is left that is to be left out, and
single spaces stand between words (`Text.words_of_abbreviate`). A phrase that stands in a longer word is put in there
all the same (`Text.phrase_put_inside_word`).
-/

namespace Footcite.Text

variable {c : Char} {t t' u : Text}

/-! ## Words without commas and colons -/

/-- A comma or colon. -/
def isStop (c : Char) : Bool := c = ',' || c = ':'

/-- A word without the commas and colons at its end. -/
def bare (word : Text) : Text := word.dropEndWhile isStop

/-- The words without the commas and colons at their ends; a word of nothing else is none. -/
def bareWords (t : Text) : List Text := (t.words.map bare).filter (!·.isEmpty)

theorem isBlank_of_isStop (h : isStop c = true) : isBlank c = false := by
  have hc : c = ',' ∨ c = ':' := by simpa [isStop] using h
  rcases hc with rfl | rfl <;> decide

theorem bare_append_stop (hc : isStop c = true) (t : Text) : bare (t ++ [c]) = bare t := by
  simp [bare, dropEndWhile, hc]

theorem mem_bareWords {w : Text} : w ∈ t.bareWords ↔ w ≠ [] ∧ ∃ v ∈ t.words, bare v = w := by
  simp [bareWords, and_comm]

/-- A bare word has characters, and none of them is a blank. -/
theorem solid_of_mem_bareWords {w : Text} (h : w ∈ t.bareWords) : w ≠ [] ∧ Solid w := by
  obtain ⟨hne, v, hv, rfl⟩ := mem_bareWords.mp h
  obtain ⟨trail, hsplit, -⟩ := exists_dropEndWhile isStop v
  have hsolid := (solid_of_mem_words hv).2
  rw [hsplit] at hsolid
  exact ⟨hne, hsolid.left⟩

theorem bareWords_cons_blank (hc : isBlank c = true) (t : Text) : bareWords (c :: t) = bareWords t := by
  rw [bareWords, words_cons_blank hc]
  rfl

theorem bareWords_append_blank (hc : isBlank c = true) (t u : Text) :
    bareWords (t ++ c :: u) = bareWords t ++ bareWords u := by
  simp only [bareWords, words_append_blank hc, List.map_append, List.filter_append]

/-- A comma or colon at the end of a text belongs to no bare word. -/
theorem bareWords_append_stop (hc : isStop c = true) (t : Text) : bareWords (t ++ [c]) = bareWords t := by
  induction t using cutAtBlanks with
  | solid t ht =>
    have hsolid : Solid (t ++ [c]) := ht.append fun d hd => by
      rw [List.mem_singleton] at hd
      exact hd ▸ isBlank_of_isStop hc
    have hword : words (t ++ [c]) = [t ++ [c]] := words_of_solid hsolid (by simp)
    simp only [bareWords, hword, List.map_cons, bare_append_stop hc]
    by_cases hne : t = []
    · rw [hne]
      rfl
    · rw [words_of_solid ht hne]
      rfl
  | gap t d u ht hd ih =>
    rw [List.append_assoc, List.cons_append, bareWords_append_blank hd, ih, bareWords_append_blank hd]

theorem EndsGap.bareWords_append (h : EndsGap t) (u : Text) : bareWords (t ++ u) = bareWords t ++ bareWords u := by
  simp only [bareWords, h.words_append, List.map_append, List.filter_append]

/-! ## The end of a word -/

/-- **A word may end before the text**: commas and colons follow, and then a blank or nothing. -/
def EndsWord : Text → Prop
  | [] => True
  | c :: t => isBlank c = true ∨ isStop c = true ∧ EndsWord t

instance decidableEndsWord : ∀ t : Text, Decidable (EndsWord t)
  | [] => inferInstanceAs (Decidable True)
  | _ :: t =>
    have := decidableEndsWord t
    inferInstanceAs (Decidable (_ ∨ _ ∧ _))

/-- What stands before the end of a word has its bare words by itself. -/
theorem EndsWord.bareWords_append {u : Text} (h : EndsWord u) (t : Text) :
    bareWords (t ++ u) = bareWords t ++ bareWords u := by
  induction u generalizing t with
  | nil => simp [bareWords]
  | cons c u ih =>
    rcases h with hc | ⟨hc, h⟩
    · rw [bareWords_append_blank hc, bareWords_cons_blank hc]
    · have hstop : bareWords [c] = [] := bareWords_append_stop hc []
      rw [List.append_cons, ih h, bareWords_append_stop hc, ← List.singleton_append, ih h [c], hstop, List.nil_append]

/-- A character that can begin a word. -/
def isOpener (c : Char) : Bool := !isBlank c && !isStop c

/-- Only what stands before a character of a word decides whether a word ends. -/
theorem EndsWord.of_append_opener (hc : isOpener c = true) (h : EndsWord (t ++ c :: u)) (v : Text) :
    EndsWord (t ++ v) := by
  obtain ⟨hblank, hstop⟩ : isBlank c = false ∧ isStop c = false := by simpa [isOpener] using hc
  induction t with
  | nil =>
    rcases h with h | ⟨h, -⟩
    · rw [hblank] at h
      cases h
    · rw [hstop] at h
      cases h
  | cons d t ih =>
    rcases h with h | ⟨h, hrest⟩
    · exact .inl h
    · exact .inr ⟨h, ih hrest⟩

/-- Whether a phrase begins as a word does. -/
def opens (phrase : Text) : Bool := phrase.head?.any isOpener

theorem exists_opener {phrase : Text} (h : opens phrase = true) : ∃ c u, phrase = c :: u ∧ isOpener c = true := by
  cases phrase with
  | nil => cases h
  | cons c u => exact ⟨c, u, rfl, h⟩

/-! ## Phrases that stand whole -/

/-- **The phrase stands between ends of words** wherever it stands in the text. -/
def StandsWhole (phrase t : Text) : Prop :=
  ∀ before after, t = before ++ phrase ++ after → EndsGap before ∧ EndsWord after

instance (t : Text) : Decidable (EndsGap t) :=
  decidable_of_iff (t.getLast?.all isBlank = true) (by
    induction t using List.reverseRecOn with
    | nil => simp [EndsGap]
    | append_singleton t c => simp [EndsGap])

instance (phrase t : Text) : Decidable (StandsWhole phrase t) :=
  decidable_of_iff
    (∀ n < t.length + 1, phrase <+: t.drop n → EndsGap (t.take n) ∧ EndsWord (t.drop (n + phrase.length))) (by
    constructor
    · rintro h before after rfl
      have hplace := h before.length (by simp only [List.length_append]; omega)
      rw [← List.length_append, List.drop_left, List.append_assoc, List.drop_left, List.take_left] at hplace
      exact hplace (List.prefix_append phrase after)
    · rintro h n - ⟨after, hafter⟩
      have hsplit : t = t.take n ++ phrase ++ after := by rw [List.append_assoc, hafter, List.take_append_drop]
      have hrest : t.drop (n + phrase.length) = after := by rw [← List.drop_drop, ← hafter, List.drop_left]
      rw [hrest]
      exact h _ _ hsplit)

theorem EndsGap.right (h : EndsGap (t ++ u)) : EndsGap u := by
  rcases List.eq_nil_or_concat u with rfl | ⟨v, d, rfl⟩
  · exact .inl rfl
  · obtain h | ⟨w, c, hw, hc⟩ := h
    · simp at h
    · rw [List.concat_eq_append, ← List.append_assoc] at hw
      obtain ⟨-, hlast⟩ := List.append_inj' hw rfl
      rw [List.singleton_inj] at hlast
      exact .inr ⟨v, c, by rw [List.concat_eq_append, hlast], hc⟩

theorem StandsWhole.right {phrase : Text} (h : StandsWhole phrase (t ++ u)) : StandsWhole phrase u := by
  rintro before after rfl
  obtain ⟨hgap, hword⟩ := h (t ++ before) after (by simp only [List.append_assoc])
  exact ⟨hgap.right, hword⟩

namespace Put

variable {rules : Table Text}

/-- Putting in phrases does not move the end of a word at the front. -/
theorem endsWord (hrules : ∀ e ∈ rules, opens e.1 = true) (h : Put rules t t') (hends : EndsWord t) : EndsWord t' := by
  cases h with
  | kept => exact hends
  | @put before phrase short after after' he h =>
    obtain ⟨c, u, rfl, hc⟩ := exists_opener (hrules _ he)
    rw [List.append_assoc, List.cons_append] at hends
    rw [List.append_assoc]
    exact hends.of_append_opener hc _

/-- **Phrases that stand whole are put in for whole words.** -/
theorem bareWords (hrules : ∀ e ∈ rules, opens e.1 = true) (h : Put rules t t')
    (hwhole : ∀ e ∈ rules, StandsWhole e.1 t) :
    ∀ w ∈ t'.bareWords, w ∈ t.bareWords ∨ ∃ e ∈ rules, w ∈ e.2.bareWords := by
  induction h with
  | kept t => exact fun w hw => .inl hw
  | @put before phrase short after after' he h ih =>
    intro w hw
    obtain ⟨hgap, hends⟩ := hwhole _ he before after rfl
    have hends' : EndsWord after' := h.endsWord hrules hends
    rw [hends'.bareWords_append, hgap.bareWords_append, List.append_assoc] at hw
    rw [hends.bareWords_append, hgap.bareWords_append, List.append_assoc]
    rcases List.mem_append.mp hw with hbefore | hw
    · exact .inl (List.mem_append_left _ hbefore)
    · rcases List.mem_append.mp hw with hshort | hafter
      · exact .inr ⟨_, he, hshort⟩
      · rcases ih (fun e he => (hwhole e he).right) w hafter with hafter | hrule
        · exact .inl (List.mem_append_right _ (List.mem_append_right _ hafter))
        · exact .inr hrule

end Put

/-! ## The rules -/

/-- The abbreviations of single words. -/
def wordShorts : List Text := (institutionRules ++ wordRules ++ placeRules).map (·.2)

/-- The abbreviations of phrases. -/
def phraseShorts : List Text := phraseRules.map (·.2)

instance (t : Text) : Decidable (Solid t) := List.decidableBAll _ t

/-- The abbreviation of a word is one word, and not one that is left out. -/
theorem wordShorts_solid : ∀ short ∈ wordShorts, short ≠ [] ∧ Solid short ∧ short ∉ droppedWords := by decide +kernel

/-- A phrase begins as a word does, and the words of its abbreviation are bare. -/
theorem phraseRules_open : ∀ e ∈ phraseRules, opens e.1 = true ∧ ∀ word ∈ e.2.words, bare word = word := by
  decide +kernel

/-- No phrase comes near what an earlier rule has put in. -/
theorem phraseRules_clear : phraseRules.Pairwise fun e e' => Clear e'.1 e.2 := by decide +kernel

/-- What becomes of a bare word; nothing of one that is left out. -/
def shortenBare (word : Text) : Option Text :=
  match wordAbbreviation? word with
  | some short => some short
  | none => if droppedWords.contains word then none else some word

/-- Each word is shortened without the commas and colons at its end. -/
theorem filterMap_shortenWord (t : Text) : t.words.filterMap shortenWord = t.bareWords.filterMap shortenBare := by
  rw [bareWords, List.filterMap_filter, List.filterMap_map]
  congr 1
  funext word
  show (if (bare word).isEmpty then none else shortenBare (bare word)) =
    if (!(bare word).isEmpty) = true then shortenBare (bare word) else none
  cases (bare word).isEmpty <;> rfl

/-- The abbreviation of a word comes from one of the lists. -/
theorem mem_wordShorts {word short : Text} (h : wordAbbreviation? word = some short) : short ∈ wordShorts := by
  have found {rules : Table Text} (h : rules.get? word = some short) : short ∈ rules.map (·.2) :=
    List.mem_map_of_mem (Table.mem_of_get? h)
  have hlists : short ∈ institutionRules.map (·.2) ∨ short ∈ wordRules.map (·.2) ∨ short ∈ placeRules.map (·.2) := by
    have hfound : institutionRules.get? word = some short ∨ wordRules.get? word = some short ∨
        placeRules.get? word = some short := by
      simp only [wordAbbreviation?, Option.orElse_eq_orElse, Option.orElse_eq_or, Option.or_eq_some_iff] at h
      tauto
    exact hfound.imp found (.imp found found)
  simpa [wordShorts] using hlists

/-- **What becomes of a bare word** is one word that may stay, and is the word itself or from a list. -/
theorem shortenBare_eq_some {word short : Text} (hword : word ≠ [] ∧ Solid word) (h : shortenBare word = some short) :
    (short ≠ [] ∧ Solid short) ∧ short ∉ droppedWords ∧ (short = word ∨ short ∈ wordShorts) := by
  unfold shortenBare at h
  split at h
  · next short' hlist =>
    obtain rfl := Option.some.inj h
    have hmem := mem_wordShorts hlist
    obtain ⟨hne, hsolid, hstays⟩ := wordShorts_solid _ hmem
    exact ⟨⟨hne, hsolid⟩, hstays, .inr hmem⟩
  · split at h
    · cases h
    · next hstays =>
      obtain rfl := Option.some.inj h
      exact ⟨hword, by simpa using hstays, .inl rfl⟩

/-- The words of an abbreviation are what becomes of the bare words of the name, phrases put in. -/
theorem words_abbreviate (name : Text) :
    name.abbreviate.words = (putPhrases name.collapse).bareWords.filterMap shortenBare := by
  rw [abbreviate, filterMap_shortenWord]
  refine words_join fun short hshort => ?_
  obtain ⟨word, hword, h⟩ := List.mem_filterMap.mp hshort
  exact (shortenBare_eq_some (solid_of_mem_bareWords hword) h).1

/-- Phrases are put in all at once. -/
theorem put_putPhrases (name : Text) : Put phraseRules name name.putPhrases := by
  have hne : ∀ e ∈ phraseRules, e.1 ≠ [] := by
    intro e he
    obtain ⟨c, u, hphrase, -⟩ := exists_opener (phraseRules_open e he).1
    exact hphrase ▸ List.cons_ne_nil c u
  have hstart : Put [] name name := .kept name
  exact put_foldl hne hstart phraseRules_clear

/-- The abbreviations of all lists. -/
def shorts : List Text := phraseShorts ++ wordShorts

/-- **A word that an abbreviation of the name may have**: one of the name, without commas and colons at its end, or one
of an abbreviation of the lists. -/
def Accounted (name word : Text) : Prop := (∃ v ∈ name.words, word = bare v) ∨ ∃ short ∈ shorts, word ∈ short.words

/-- **Abbreviating works on words.** No word of an abbreviation is one to be left out, and single spaces stand between
the words and nowhere else. If each phrase stands whole in the name, then each word comes from the name or from the
lists. -/
theorem words_of_abbreviate (name : Text) :
    (∀ word ∈ name.abbreviate.words, word ∉ droppedWords) ∧ name.abbreviate.collapse = name.abbreviate ∧
      ((∀ phrase ∈ phraseRules.keys, StandsWhole phrase name.collapse) →
        ∀ word ∈ name.abbreviate.words, Accounted name word) := by
  have hwords := words_abbreviate name
  refine ⟨?_, ?_, ?_⟩
  · intro word hword
    rw [hwords] at hword
    obtain ⟨v, hv, h⟩ := List.mem_filterMap.mp hword
    exact (shortenBare_eq_some (solid_of_mem_bareWords hv) h).2.1
  · rw [collapse, hwords, abbreviate, filterMap_shortenWord]
  · intro hwhole word hword
    rw [hwords] at hword
    obtain ⟨v, hv, h⟩ := List.mem_filterMap.mp hword
    obtain ⟨⟨hne, hsolid⟩, -, rfl | hlist⟩ := shortenBare_eq_some (solid_of_mem_bareWords hv) h
    · have hput := put_putPhrases name.collapse
      have hopen : ∀ e ∈ phraseRules, opens e.1 = true := fun e he => (phraseRules_open e he).1
      have hphrases : ∀ e ∈ phraseRules, StandsWhole e.1 name.collapse := fun e he => hwhole _ (List.mem_map_of_mem he)
      rcases hput.bareWords hopen hphrases word hv with hname | ⟨e, he, hmem⟩
      · obtain ⟨-, w, hw, hbare⟩ := mem_bareWords.mp hname
        rw [words_collapse] at hw
        exact .inl ⟨w, hw, hbare.symm⟩
      · obtain ⟨-, w, hw, hbare⟩ := mem_bareWords.mp hmem
        rw [(phraseRules_open e he).2 w hw] at hbare
        exact .inr ⟨e.2, List.mem_append_left _ (List.mem_map_of_mem he), hbare ▸ hw⟩
    · refine .inr ⟨word, List.mem_append_right _ hlist, ?_⟩
      rw [words_of_solid hsolid hne]
      exact List.mem_singleton_self word

/-- Phrases stand before a comma and a colon and over one another. -/
theorem words_of_abbreviate_phrases :
    let name : Text := "New York  Law, of Public Law Review:"
    ∀ word ∈ name.abbreviate.words, Accounted name word := by
  intro name
  have hwhole : ∀ phrase ∈ phraseRules.keys, StandsWhole phrase name.collapse := by decide +kernel
  exact (words_of_abbreviate name).2.2 hwhole

/-- **A phrase is put in inside a longer word.** -/
theorem phrase_put_inside_word : ∃ name : Text, ∃ word ∈ name.abbreviate.words, ¬Accounted name word := by
  refine ⟨"Public Lawyer", "L.yer", by decide +kernel, ?_⟩
  rintro (hname | ⟨short, hshort, hword⟩)
  · revert hname
    decide +kernel
  · rcases List.mem_append.mp hshort with hphrase | hlist
    · have hnone : ∀ short ∈ phraseShorts, "L.yer".toList ∉ short.words := by decide +kernel
      exact hnone short hphrase hword
    · obtain ⟨hne, hsolid, -⟩ := wordShorts_solid short hlist
      rw [words_of_solid hsolid hne, List.mem_singleton] at hword
      have hnone : "L.yer".toList ∉ wordShorts := by decide +kernel
      exact hnone (hword ▸ hlist)

end Footcite.Text
