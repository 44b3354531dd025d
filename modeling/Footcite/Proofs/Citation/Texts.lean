import Footcite.Proofs.Citation.Asterisks
import Footcite.Proofs.Citation.Failures
import Footcite.Proofs.Pincite.Place

/-!
# Texts that citations show

The texts of a source are its titles, the parts of names and the fields of its kind (`Source.texts`). Where they are on
one line and have no asterisks, so are the names, the editions and the parentheses that are made of them, and the
pincites that are cleaned.
-/

namespace Footcite

open Text

/-! ## Texts of a source -/

/-- The texts that a name is made of. -/
def Name.texts (n : Name) : List Text := [n.family, n.given, n.particle, n.suffix, n.literal].flatMap Option.toList

/-- The texts of a work that citations show as they are; the name of a periodical is abbreviated. -/
def Work.texts : Work → List Text
  | .book b => [b.edition, b.volume].flatMap Option.toList ++ (b.editors ++ b.translators).flatMap Name.texts
  | .chapter c => [c.container, c.edition, c.volume, c.page].flatMap Option.toList ++
      (c.editors ++ c.translators).flatMap Name.texts
  | .article a => [a.volume, a.page, a.issueDate].flatMap Option.toList
  | .manuscript m => [m.volume, m.page, m.url].flatMap Option.toList
  | .case c => [c.reporter, c.volume, c.page, c.court].flatMap Option.toList

/-- The title and the short title. -/
def Source.titles (s : Source) : List Text := [s.title, s.shortTitle].flatMap Option.toList

/-- The texts of a source that citations show. -/
def Source.texts (s : Source) : List Text := s.titles ++ s.authors.flatMap Name.texts ++ s.work.texts

/-! ### What stands between texts -/

theorem unstarred_nil : Unstarred [] := by decide

theorem unstarred_space : Unstarred " " := by decide

theorem unstarred_comma : Unstarred ", " := by decide

theorem Text.Unstarred.inParentheses {t : Text} (h : Unstarred t) : Unstarred (" (" ++ t ++ ")") := by
  have hopen : Unstarred " (" := by decide
  have hclose : Unstarred ")" := by decide
  exact (hopen.append h).append hclose

/-! ### Numerals, names and editions -/

theorem unstarred_ofNat (n : Nat) : Unstarred (Numeral.ofNat n) := by
  intro c hc
  have hdigit : c.isDigit = true := Nat.isDigit_of_mem_toDigits (by decide) (by decide) hc
  constructor
  · rintro rfl
    cases hdigit
  · rintro rfl
    cases hdigit

theorem unstarred_ofInt : ∀ n : Int, Unstarred (Numeral.ofInt n)
  | .ofNat n => unstarred_ofNat n
  | .negSucc n => by
    have hsign : Unstarred ['-'] := by decide
    exact hsign.append (unstarred_ofNat (n + 1))

namespace Name

variable {n : Name} {names : List Name} {field : Option Text} {t : Text}

theorem mem_texts : t ∈ n.texts ↔
    n.family = some t ∨ n.given = some t ∨ n.particle = some t ∨ n.suffix = some t ∨ n.literal = some t := by
  simp [texts]

/-- The parts of a name that are given, with spaces between them. -/
theorem unstarred_join {fields : List (Option Text)} (h : ∀ t, some t ∈ fields → Unstarred t) :
    Unstarred (Text.join [' '] (fields.filterMap nonEmpty)) := by
  refine Unstarred.join (by decide) fun t ht => ?_
  obtain ⟨f, hf, hfield⟩ := List.mem_filterMap.mp ht
  exact h t ((nonEmpty_eq_some.mp hfield).1 ▸ hf)

theorem unstarred_full (h : ∀ t ∈ n.texts, Unstarred t) : Unstarred n.full := by
  have hname : Unstarred (Text.join [' '] ([n.given, n.particle, n.family].filterMap nonEmpty)) :=
    unstarred_join fun t ht => h t (mem_texts.mpr (by simp at ht; tauto))
  unfold full
  split
  · next l hl => exact h l (mem_texts.mpr (by simp [(nonEmpty_eq_some.mp hl).1]))
  · split
    · next suffix hsuffix =>
      have hmem : Unstarred suffix := h suffix (mem_texts.mpr (by simp [(nonEmpty_eq_some.mp hsuffix).1]))
      refine (hname.append ?_).append hmem
      split <;> decide
    · exact hname

theorem unstarred_surname (h : ∀ t ∈ n.texts, Unstarred t) : Unstarred n.surname := by
  unfold surname
  split
  · next l hl => exact h l (mem_texts.mpr (by simp [(nonEmpty_eq_some.mp hl).1]))
  · exact unstarred_join fun t ht => h t (mem_texts.mpr (by simp at ht; tauto))

theorem unstarred_list {ts : List Text} (h : ∀ t ∈ ts, Unstarred t) : Unstarred (list ts) := by
  unfold list
  split
  · decide
  · next t => exact h t List.mem_cons_self
  · have hfront : Unstarred (Text.join ", " ts.dropLast) :=
      Unstarred.join (by decide) fun t ht => h t (List.mem_of_mem_dropLast ht)
    have hand : Unstarred " & " := by decide
    have hlast : Unstarred (ts.getLast?.getD []) := by
      cases hl : ts.getLast? with
      | none => decide
      | some t => exact h t (List.mem_of_getLast? hl)
    exact (hfront.append hand).append hlast

theorem unstarred_long (h : ∀ t ∈ names.flatMap texts, Unstarred t) : Unstarred (long names) := by
  refine unstarred_list fun t ht => ?_
  obtain ⟨n, hn, rfl⟩ := List.mem_map.mp ht
  exact unstarred_full fun t ht => h t (List.mem_flatMap.mpr ⟨n, hn, ht⟩)

theorem unstarred_short (h : ∀ t ∈ names.flatMap texts, Unstarred t) : Unstarred (short names) := by
  have hname : ∀ n ∈ names, Unstarred n.surname := fun n hn =>
    unstarred_surname fun t ht => h t (List.mem_flatMap.mpr ⟨n, hn, ht⟩)
  unfold short
  split
  · decide
  · next n => exact hname n List.mem_cons_self
  · next n m =>
    have hand : Unstarred " & " := by decide
    exact ((hname n (by simp)).append hand).append (hname m (by simp))
  · next n _ _ _ =>
    have hothers : Unstarred " et al." := by decide
    exact (hname n (by simp)).append hothers

end Name

theorem trim_subset (t : Text) : t.trim ⊆ t := by
  obtain ⟨lead, trail, hsplit, -⟩ := exists_trim t
  intro c hc
  rw [hsplit]
  simp [hc]

theorem unstarred_printedEdition {edition label : Text} (h : Unstarred edition)
    (hlabel : printedEdition edition = .ok label) : Unstarred label := by
  simp only [printedEdition] at hlabel
  split at hlabel
  · cases hlabel
    exact h.subset (trim_subset edition)
  · split at hlabel
    · cases hlabel
      refine (unstarred_ofNat _).append ?_
      unfold ordinalEnding
      split_ifs <;> decide
    · cases hlabel

/-- A parenthesis, or nothing for an empty one. -/
theorem unstarred_parenthesis {t : Text} (h : Unstarred t) :
    Unstarred (if t.isEmpty then [] else " (" ++ t ++ ")") := by
  split
  · exact unstarred_nil
  · exact h.inParentheses

theorem unstarred_yearParenthesis (year : Option Int) : Unstarred (yearParenthesis year) := by
  cases year with
  | none => decide
  | some y => exact (unstarred_ofInt y).inParentheses

/-- The parenthesis with edition, editors, translators and year. -/
theorem unstarred_publication {edition : Option Text} {editors translators : List Name} {year : Option Int}
    {body : Text} (hedition : ∀ t, edition = some t → Unstarred t)
    (hnames : ∀ t ∈ (editors ++ translators).flatMap Name.texts, Unstarred t)
    (h : publication edition editors translators year = .ok body) : Unstarred body := by
  rw [List.flatMap_append] at hnames
  have heditors := Name.unstarred_long fun t ht => hnames t (List.mem_append_left _ ht)
  have htranslators := Name.unstarred_long fun t ht => hnames t (List.mem_append_right _ ht)
  have hed : Unstarred " ed." := by decide
  have heds : Unstarred " eds." := by decide
  have htrans : Unstarred " trans." := by decide
  unfold publication at h
  extract_lets editorLabels translatorLabels rest at h
  have heditorLabels : ∀ t ∈ editorLabels, Unstarred t := by
    simp only [editorLabels]
    split
    · simp
    · simpa using heditors.append hed
    · simpa using heditors.append heds
  have htranslatorLabels : ∀ t ∈ translatorLabels, Unstarred t := by
    simp only [translatorLabels]
    split
    · simp
    · simpa using htranslators.append htrans
  have hrest (labels : List Text) (hlabels : ∀ t ∈ labels, Unstarred t) (h : rest labels = .ok body) :
      Unstarred body := by
    have hparts : Unstarred (Text.join ", " (labels ++ editorLabels ++ translatorLabels)) := by
      refine Unstarred.join unstarred_comma fun t ht => ?_
      rcases List.mem_append.mp ht with ht | ht
      · rcases List.mem_append.mp ht with ht | ht
        · exact hlabels t ht
        · exact heditorLabels t ht
      · exact htranslatorLabels t ht
    obtain rfl := Except.ok.inj h
    refine unstarred_parenthesis ?_
    cases year with
    | none => exact hparts
    | some y =>
      dsimp only
      split_ifs
      · exact unstarred_ofInt y
      · exact (hparts.append unstarred_space).append (unstarred_ofInt y)
      · exact (hparts.append unstarred_comma).append (unstarred_ofInt y)
  split at h
  · next e he =>
    obtain ⟨label, hlabel, heq⟩ := Except.bind_ok h
    refine hrest _ ?_ heq
    simpa using (unstarred_printedEdition (hedition e (nonEmpty_eq_some.mp he).1) hlabel).append hed
  · exact hrest _ (by simp) h

/-! ### Pincites -/

/-- A pincite is cleaned by taking characters away. -/
theorem Pincite.unstarred_clean {id : Text} {raw pin : Option Text} (hraw : ∀ p, raw = some p → Unstarred p)
    (h : clean id raw = .ok pin) {p : Text} (hp : pin = some p) : Unstarred p := by
  obtain ⟨clause, hclause, hnormal⟩ := Option.bind_eq_some_iff.mp ((clean_ok h).symm.trans hp)
  obtain ⟨t, ht, rfl⟩ := Option.map_eq_some_iff.mp hnormal
  have hdrop : dropAt t ⊆ t := by
    rcases dropAt_cases t with heq | ⟨v, gap, heq, -⟩
    · rw [heq]
      exact List.Subset.refl t
    · intro c hc
      rw [heq]
      exact List.mem_append_right _ hc
  have htrim : t ⊆ clause := trimmed?_eq_some ht ▸ trim_subset clause
  exact (((hraw clause hclause).subset htrim).subset hdrop).subset (trim_subset _)

theorem Pincite.unstarred_withAt {p : Text} (h : Unstarred p) : Unstarred (withAt p) := by
  have hat : Unstarred "at " := by decide
  unfold withAt
  split
  · exact hat.append h
  · exact h

end Footcite
