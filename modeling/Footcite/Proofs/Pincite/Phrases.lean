import Footcite.Proofs.Pincite.Clause
import Footcite.Proofs.Text.Phrases

/-!
# The grammar of a pincite clause

The phrases of a pincite clause as a grammar, each told by the text and by what comes after it, since a word ends where
the text goes on with no character of a word. The recognisers take the phrases of the grammar and nothing else, up to
the clauses themselves (`Pincite.accepts_clause`).
-/

namespace Footcite.Pincite

open Recogniser

/-! ## The grammar -/

/-- Digits, with one letter after them perhaps, up to the end of the word. -/
inductive IsNumeral : Phrase
  | mk {digits letter v : Text} : digits ≠ [] → digits.all isDecimalDigit = true → letter.length ≤ 1 →
      letter.all isLatinLetter = true → v.endsWord = true → IsNumeral (digits ++ letter) v

/-- A numeral after a period or a colon. -/
inductive IsFurtherNumeral : Phrase
  | mk {mark : Char} {u v : Text} : mark ∈ ".:".toList → IsNumeral u v → IsFurtherNumeral (mark :: u) v

/-- A numeral, or several joined by periods or colons. -/
inductive IsNumber : Phrase
  | mk {u w v : Text} : IsNumeral u (w ++ v) → Phrase.Repeated IsFurtherNumeral w v → IsNumber (u ++ w) v

/-- A number, or a range of two with blanks around the dash perhaps. -/
inductive IsSpan : Phrase
  | single {u v : Text} : IsNumber u v → IsSpan u v
  | range {u lead trail w v : Text} {dash : Char} : IsNumber u (lead ++ dash :: (trail ++ w) ++ v) →
      lead.blank = true → dash ∈ "-–—".toList → trail.blank = true → IsNumber w v →
      IsSpan (u ++ (lead ++ dash :: (trail ++ w))) v

/-- A number or a range of notes. -/
inductive IsNoteReference : Phrase
  | mk {sign blanks u v : Text} : Text.Spells "n." sign ∨ Text.Spells "nn." sign → blanks.blank = true →
      IsSpan u v → IsNoteReference (sign ++ (blanks ++ u)) v

/-- The signs and abbreviations for parts of a work. -/
def labels : List Text := ["§", "§§", "¶", "¶¶", "pt.", "ch.", "para", "para.", "art.", "cl."]

/-- A label in whatever case, with blanks after it perhaps, or nothing. -/
inductive IsLabelling : Text → Prop
  | none : IsLabelling []
  | label {letters l blanks : Text} : letters ∈ labels → Text.Spells letters l → blanks.blank = true →
      IsLabelling (l ++ blanks)

/-- A reference to notes, with blanks before it perhaps, or nothing. -/
inductive IsAnnotation : Phrase
  | none (v : Text) : IsAnnotation [] v
  | note {blanks u v : Text} : blanks.blank = true → IsNoteReference u v → IsAnnotation (blanks ++ u) v

/-- **A location**: a page, section, paragraph or range of them, with a reference to its notes perhaps; notes alone; or
the preamble. -/
inductive IsLocation : Phrase
  | span {label u note v : Text} : IsLabelling label → IsSpan u (note ++ v) → IsAnnotation note v →
      IsLocation (label ++ (u ++ note)) v
  | note {u v : Text} : IsNoteReference u v → IsLocation u v
  | preamble {u v : Text} : Text.Spells "pmbl." u → IsLocation u v

/-- What joins two locations: a comma or an ampersand, with blanks around it perhaps, or an "and" between blanks. -/
inductive IsJoint : Text → Prop
  | mark {lead trail : Text} {mark : Char} : lead.blank = true → mark ∈ ",&".toList → trail.blank = true →
      IsJoint (lead ++ mark :: trail)
  | and {lead u trail : Text} : lead ≠ [] → lead.blank = true → Text.Spells "and" u → trail ≠ [] →
      trail.blank = true → IsJoint (lead ++ (u ++ trail))

/-- A location after what joins it to the one before. -/
inductive IsFurtherLocation : Phrase
  | mk {joint u v : Text} : IsJoint joint → IsLocation u v → IsFurtherLocation (joint ++ u) v

/-- One location or more. -/
inductive IsList : Phrase
  | mk {u w v : Text} : IsLocation u (w ++ v) → Phrase.Repeated IsFurtherLocation w v → IsList (u ++ w) v

/-- An "at" with blanks after it, or nothing. -/
inductive IsLeadingAt : Text → Prop
  | none : IsLeadingAt []
  | written {u blanks : Text} : Text.Spells "at" u → blanks ≠ [] → blanks.blank = true → IsLeadingAt (u ++ blanks)

/-- Blanks aside, the text has come to its end, to a mark of punctuation or to an opening bracket. -/
def IsClosing (v : Text) : Prop :=
  ∃ blanks rest : Text, v = blanks ++ rest ∧ blanks.blank = true ∧ ∀ c, rest.head? = some c → c ∈ ".,;:([".toList

/-- **A pincite clause**: after blanks and an "at", if they are there, the placeholder up to the end of a word or one
location or more; or an "at" by itself where the text goes on as a clause may end. -/
inductive IsClause : Phrase
  | placeholder {lead at_ u v : Text} : lead.blank = true → IsLeadingAt at_ → Text.Spells placeholder u →
      v.endsWord = true → IsClause (lead ++ (at_ ++ u)) v
  | locations {lead at_ u v : Text} : lead.blank = true → IsLeadingAt at_ → IsList u v →
      IsClause (lead ++ (at_ ++ u)) v
  | bareAt {lead u v : Text} : lead.blank = true → Text.Spells "at" u → IsClosing v → IsClause (lead ++ u) v

/-! ## Recognising the grammar -/

theorem accepts_oneOf (cs : Text) : Accepts (oneOf cs) fun u _ => ∃ c, u = [c] ∧ c ∈ cs :=
  Accepts.one.congr fun u v => by simp only [List.contains_iff_mem]

theorem accepts_numeral : Accepts numeral IsNumeral := by
  refine (Accepts.many1_one.next (Accepts.one.optional.next Accepts.ahead)).congr fun u v => ⟨?_, ?_⟩
  · rintro ⟨digits, _, rfl, ⟨hne, hdigits⟩, letter, _, rfl, hletter, rfl, hend⟩
    rw [List.append_nil]
    rcases hletter with ⟨c, rfl, hc⟩ | rfl
    · exact .mk hne hdigits (by simp) (by simpa using hc) hend
    · exact .mk hne hdigits (by simp) rfl hend
  · rintro ⟨hne, hdigits, hlength, hletter, hend⟩
    refine ⟨_, _, rfl, ⟨hne, hdigits⟩, _, [], (List.append_nil _).symm, ?_, rfl, hend⟩
    rename_i letter
    match letter, hlength, hletter with
    | [], _, _ => exact .inr rfl
    | [c], _, hc => exact .inl ⟨c, rfl, by simpa using hc⟩

theorem accepts_number : Accepts number IsNumber := by
  have hfurther : Accepts ((oneOf ".:").next numeral) IsFurtherNumeral := by
    refine ((accepts_oneOf ".:").next accepts_numeral).congr fun u v => ⟨?_, ?_⟩
    · rintro ⟨_, u, rfl, ⟨mark, rfl, hmark⟩, hu⟩
      exact .mk hmark hu
    · rintro ⟨hmark, hu⟩
      exact ⟨[_], _, rfl, ⟨_, rfl, hmark⟩, hu⟩
  refine (accepts_numeral.next (hfurther.many (Shrinks.one.next_left numeral_inside))).congr fun u v => ⟨?_, ?_⟩
  · rintro ⟨u, w, rfl, hu, hw⟩
    exact .mk hu hw
  · rintro ⟨hu, hw⟩
    exact ⟨_, _, rfl, hu, hw⟩

theorem accepts_span : Accepts span IsSpan := by
  refine (accepts_number.next (Accepts.blanks.next
    ((accepts_oneOf "-–—").next (Accepts.blanks.next accepts_number))).optional).congr fun u v => ⟨?_, ?_⟩
  · rintro ⟨u, _, rfl, hu, ⟨lead, _, rfl, hlead, _, _, rfl, ⟨dash, rfl, hdash⟩, trail, w, rfl, htrail, hw⟩ | rfl⟩
    · have hu : IsNumber u (lead ++ dash :: (trail ++ w) ++ v) := by simpa using hu
      have hspan := IsSpan.range hu hlead hdash htrail hw
      exact hspan
    · rw [List.append_nil]
      exact .single hu
  · rintro (hu | ⟨hu, hlead, hdash, htrail, hw⟩)
    · exact ⟨u, [], (List.append_nil u).symm, hu, .inr rfl⟩
    · exact ⟨_, _, rfl, hu, .inl ⟨_, _, rfl, hlead, [_], _, rfl, ⟨_, rfl, hdash⟩, _, _, rfl, htrail, hw⟩⟩

/-- A word, and another after it perhaps. -/
theorem accepts_word_optional (w w' : Text) : Accepts ((word w).next (word w').optional) fun u _ =>
    Text.Spells w u ∨ Text.Spells (w ++ w') u := by
  refine ((Accepts.word w).next (Accepts.word w').optional).congr fun u _ => ⟨?_, ?_⟩
  · rintro ⟨x, y, rfl, hx, hy | rfl⟩
    · exact .inr (Text.spells_append.mpr ⟨x, y, rfl, hx, hy⟩)
    · exact .inl (by rwa [List.append_nil])
  · rintro (h | h)
    · exact ⟨u, [], (List.append_nil u).symm, h, .inr rfl⟩
    · obtain ⟨x, y, rfl, hx, hy⟩ := Text.spells_append.mp h
      exact ⟨x, y, rfl, hx, .inl hy⟩

theorem accepts_noteReference : Accepts noteReference IsNoteReference := by
  refine ((Accepts.word "n").next ((Accepts.word "n").optional.next ((Accepts.word ".").next
    (Accepts.blanks.next accepts_span)))).congr fun u v => ⟨?_, ?_⟩
  · rintro ⟨n, _, rfl, hn, n', _, rfl, hn', dot, _, rfl, hdot, blanks, u, rfl, hblanks, hu⟩
    have hsign : Text.Spells "n." (n ++ (n' ++ dot)) ∨ Text.Spells "nn." (n ++ (n' ++ dot)) := by
      rcases hn' with hn' | rfl
      · exact .inr (Text.spells_append.mpr ⟨_, _, rfl, hn, Text.spells_append.mpr ⟨_, _, rfl, hn', hdot⟩⟩)
      · exact .inl (Text.spells_append.mpr ⟨_, _, rfl, hn, hdot⟩)
    simpa only [List.append_assoc] using IsNoteReference.mk hsign hblanks hu
  · rintro ⟨hsign, hblanks, hu⟩
    rcases hsign with hsign | hsign
    · have hsign : Text.Spells (['n'] ++ ['.']) _ := hsign
      obtain ⟨n, dot, rfl, hn, hdot⟩ := Text.spells_append.mp hsign
      exact ⟨n, _, List.append_assoc .., hn, [], _, rfl, .inr rfl, dot, _, rfl, hdot, _, _, rfl, hblanks, hu⟩
    · have hsign : Text.Spells (['n'] ++ (['n'] ++ ['.'])) _ := hsign
      obtain ⟨n, _, rfl, hn, hsign⟩ := Text.spells_append.mp hsign
      obtain ⟨n', dot, rfl, hn', hdot⟩ := Text.spells_append.mp hsign
      exact ⟨n, _, List.append_assoc .., hn, n', _, List.append_assoc .., .inl hn', dot, _, rfl, hdot, _, _, rfl,
        hblanks, hu⟩

theorem accepts_label : Accepts label fun u _ => ∃ letters ∈ labels, Text.Spells letters u := by
  refine (Accepts.firstOf_cons (accepts_word_optional "§" "§") (.firstOf_cons (accepts_word_optional "¶" "¶")
    (.firstOf_cons (.word "pt.") (.firstOf_cons (.word "ch.") (.firstOf_cons (accepts_word_optional "para" ".")
      (.firstOf_cons (.word "art.") (.firstOf_cons (.word "cl.") .firstOf_nil))))))).congr fun u v => ?_
  simp only [labels, List.exists_mem_cons_iff, List.not_mem_nil, false_and, exists_false, or_assoc]
  rfl

theorem accepts_labelling : Accepts (label.next blanks).optional fun u _ => IsLabelling u := by
  refine (accepts_label.next Accepts.blanks).optional.congr fun u v => ⟨?_, ?_⟩
  · rintro (⟨l, blanks, rfl, ⟨letters, hletters, hl⟩, hblanks⟩ | rfl)
    · exact .label hletters hl hblanks
    · exact .none
  · rintro (_ | ⟨hletters, hl, hblanks⟩)
    · exact .inr rfl
    · exact .inl ⟨_, _, rfl, ⟨_, hletters, hl⟩, hblanks⟩

theorem accepts_annotation : Accepts (blanks.next noteReference).optional IsAnnotation := by
  refine (Accepts.blanks.next accepts_noteReference).optional.congr fun u v => ⟨?_, ?_⟩
  · rintro (⟨blanks, u, rfl, hblanks, hu⟩ | rfl)
    · exact .note hblanks hu
    · exact .none v
  · rintro (_ | ⟨hblanks, hu⟩)
    · exact .inr rfl
    · exact .inl ⟨_, _, rfl, hblanks, hu⟩

theorem accepts_location : Accepts location IsLocation := by
  refine (Accepts.firstOf_cons (accepts_labelling.next (accepts_span.next accepts_annotation))
    (.firstOf_cons accepts_noteReference (.firstOf_cons (.word "pmbl.") .firstOf_nil))).congr fun u v => ⟨?_, ?_⟩
  · rintro (⟨label, _, rfl, hlabel, u, note, rfl, hu, hnote⟩ | hu | hu | ⟨⟨⟩⟩)
    · exact .span hlabel hu hnote
    · exact .note hu
    · exact .preamble hu
  · rintro (⟨hlabel, hu, hnote⟩ | hu | hu)
    · exact .inl ⟨_, _, rfl, hlabel, _, _, rfl, hu, hnote⟩
    · exact .inr (.inl hu)
    · exact .inr (.inr (.inl hu))

theorem accepts_joint : Accepts joint fun u _ => IsJoint u := by
  refine ((Accepts.blanks.next ((accepts_oneOf ",&").next Accepts.blanks)).or
    (Accepts.gap.next ((Accepts.word "and").next Accepts.gap))).congr fun u v => ⟨?_, ?_⟩
  · rintro (⟨lead, _, rfl, hlead, _, trail, rfl, ⟨mark, rfl, hmark⟩, htrail⟩ |
      ⟨lead, _, rfl, ⟨hne, hlead⟩, u, trail, rfl, hu, hne', htrail⟩)
    · exact .mark hlead hmark htrail
    · exact .and hne hlead hu hne' htrail
  · rintro (⟨hlead, hmark, htrail⟩ | ⟨hne, hlead, hu, hne', htrail⟩)
    · exact .inl ⟨_, _, rfl, hlead, [_], _, rfl, ⟨_, rfl, hmark⟩, htrail⟩
    · exact .inr ⟨_, _, rfl, ⟨hne, hlead⟩, _, _, rfl, hu, hne', htrail⟩

theorem accepts_furtherLocation : Accepts (joint.next location) IsFurtherLocation := by
  refine (accepts_joint.next accepts_location).congr fun u v => ⟨?_, ?_⟩
  · rintro ⟨j, u, rfl, hj, hu⟩
    exact .mk hj hu
  · rintro ⟨hj, hu⟩
    exact ⟨_, _, rfl, hj, hu⟩

theorem accepts_list : Accepts locations IsList := by
  refine (accepts_location.next (accepts_furtherLocation.many
    (joint_shrinks.next_left location_inside))).congr fun u v => ⟨?_, ?_⟩
  · rintro ⟨u, w, rfl, hu, hw⟩
    exact .mk hu hw
  · rintro ⟨hu, hw⟩
    exact ⟨_, _, rfl, hu, hw⟩

theorem accepts_leadingAt : Accepts ((word "at").next gap).optional fun u _ => IsLeadingAt u := by
  refine ((Accepts.word "at").next Accepts.gap).optional.congr fun u v => ⟨?_, ?_⟩
  · rintro (⟨u, blanks, rfl, hu, hne, hblanks⟩ | rfl)
    · exact .written hu hne hblanks
    · exact .none
  · rintro (_ | ⟨hu, hne, hblanks⟩)
    · exact .inr rfl
    · exact .inl ⟨_, _, rfl, hu, hne, hblanks⟩

theorem closesClause_iff {v : Text} : closesClause v = true ↔ IsClosing v := by
  constructor
  · intro h
    obtain ⟨blanks, hv, hblanks⟩ := Text.exists_trimStart v
    refine ⟨blanks, v.trimStart, hv, hblanks, fun c hc => ?_⟩
    obtain ⟨rest, hrest⟩ := List.head?_eq_some_iff.mp hc
    simpa [closesClause, hrest] using h
  · rintro ⟨blanks, rest, rfl, hblanks, hrest⟩
    rw [closesClause, Text.trimStart_append hblanks]
    cases rest with
    | nil => rfl
    | cons c rest =>
      have hc : c ∈ ".,;:([".toList := hrest c rfl
      have hmarks : (".,;:([".toList.all fun c => !isBlank c) = true := by decide
      rw [Text.trimStart_cons (by simpa using List.all_eq_true.mp hmarks c hc)]
      simpa using hc

/-- **The clauses are those of the grammar.** -/
theorem accepts_clause : Accepts clause IsClause := by
  refine ((Accepts.blanks.next (accepts_leadingAt.next (((Accepts.word placeholder).next Accepts.ahead).or
    accepts_list))).or (Accepts.blanks.next ((Accepts.word "at").next Accepts.ahead))).congr fun u v => ⟨?_, ?_⟩
  · rintro (⟨lead, _, rfl, hlead, at_, _, rfl, hat, ⟨u, _, rfl, hu, rfl, hend⟩ | hu⟩ |
      ⟨lead, _, rfl, hlead, u, _, rfl, hu, rfl, hend⟩)
    · rw [List.append_nil]
      exact .placeholder hlead hat hu hend
    · exact .locations hlead hat hu
    · rw [List.append_nil]
      exact .bareAt hlead hu (closesClause_iff.mp hend)
  · rintro (⟨hlead, hat, hu, hend⟩ | ⟨hlead, hat, hu⟩ | ⟨hlead, hu, hend⟩)
    · exact .inl ⟨_, _, rfl, hlead, _, _, rfl, hat, .inl ⟨_, [], (List.append_nil _).symm, hu, rfl, hend⟩⟩
    · exact .inl ⟨_, _, rfl, hlead, _, _, rfl, hat, .inr hu⟩
    · exact .inr ⟨_, _, rfl, hlead, _, [], (List.append_nil _).symm, hu, rfl, closesClause_iff.mpr hend⟩

end Footcite.Pincite
