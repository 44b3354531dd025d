import Footcite.Proofs.Journal.Notices
import Footcite.Proofs.Text.Folding

/-!
# Journals that a table lists

Names of journals are compared without regard to case and to runs of blanks (`Journals.SameName`). A name is looked up
with its blanks collapsed, while a key of a table keeps the blanks between its words; the two meet exactly when there
are single spaces between the words of the key (`Journals.trim_fold_eq_iff`). So a name is abbreviated from the user's
table, or else from the bundled one, when the table lists it under such a key, and by rule when neither does
(`Journals.resolve_listed`). Under a key with two spaces between its words no name is found
(`Journals.listed_not_found`).
-/

namespace Footcite

/-- A text with single spaces between its words, apart from blanks at its ends. -/
def Text.EvenlySpaced (t : Text) : Prop := t.trim = t.collapse

instance (t : Text) : Decidable t.EvenlySpaced := inferInstanceAs (Decidable (_ = _))

namespace Journals

/-- **Two names that differ in case and blanks only.** -/
def SameName (name name' : Text) : Prop := name.collapse.fold = name'.collapse.fold

instance (name name' : Text) : Decidable (SameName name name') := inferInstanceAs (Decidable (_ = _))

/-- **The table has the name under a key with single spaces between its words.** -/
def Lists (table : Table Text) (name : Text) : Prop := ∃ key ∈ table.keys, SameName key name ∧ key.EvenlySpaced

instance (table : Table Text) (name : Text) : Decidable (Lists table name) :=
  inferInstanceAs (Decidable (∃ key ∈ table.keys, _))

/-- **A key and a name meet** when they are the same name and the key is evenly spaced. -/
theorem trim_fold_eq_iff {key name : Text} :
    key.trim.fold = name.collapse.fold ↔ SameName key name ∧ key.EvenlySpaced := by
  constructor
  · intro h
    have hsame : SameName key name := by
      have := congrArg Text.collapse h
      rwa [Text.collapse_fold, Text.collapse_fold, Text.collapse_trim, Text.collapse_collapse] at this
    have heven : key.trim.fold.collapse = key.trim.fold := by
      rw [Text.collapse_fold, Text.collapse_trim, h]
      exact hsame
    exact ⟨hsame, (Text.collapse_eq_of_fold heven).symm.trans (Text.collapse_trim key)⟩
  · rintro ⟨hsame, heven⟩
    rw [heven]
    exact hsame

/-- What a table answers under its keys, trimmed and folded. -/
theorem get?_keyed (table : Table Text) (name : Text) :
    (∃ key short, (keyed table).get? name.collapse.fold = some short ∧ (key, short) ∈ table ∧ SameName key name ∧
        Lists table name) ∨
      (keyed table).get? name.collapse.fold = none ∧ ¬Lists table name := by
  rcases Table.get?_ofEntries (table.map fun entry => (entry.1.trim.fold, entry.2)) name.collapse.fold with
    ⟨short, hget, hmem⟩ | ⟨hget, hkeys⟩
  · obtain ⟨entry, hentry, heq⟩ := List.mem_map.mp hmem
    obtain ⟨hkey, rfl⟩ := Prod.mk.inj heq
    obtain ⟨hsame, heven⟩ := trim_fold_eq_iff.mp hkey
    exact .inl ⟨entry.1, entry.2, hget, hentry, hsame, entry.1, List.mem_map_of_mem hentry, hsame, heven⟩
  · refine .inr ⟨hget, ?_⟩
    rintro ⟨key, hkey, hlists⟩
    obtain ⟨entry, hentry, rfl⟩ := List.mem_map.mp hkey
    refine hkeys ?_
    rw [← trim_fold_eq_iff.mpr hlists]
    exact List.mem_map_of_mem (List.mem_map_of_mem hentry)

/-- What new journals say of a name without a short name of its own, whatever they were asked before. -/
theorem resolve_askAll (user bundled : Table Text) (asked : List Question) (name : Text) (override : Option Text)
    (h : override.bind Text.trimmed? = none) :
    (((ofTables user bundled).askAll asked).2.resolve name override).1 =
      (ofTables user bundled).lookup name.collapse := by
  have hnew := ofTables_serves user bundled
  obtain ⟨hserves, -⟩ := Noted.askAll asked hnew (ofTables_noted user bundled)
  rw [resolve, h]
  simp only [hserves.answer_fst]
  exact lookup_congr hserves.user hserves.bundled _

/-- **Every listed journal is found.** Journals that are asked for a name without a short name of its own, whatever they
were asked before, abbreviate it as the user's table does for this name if that table lists it, and as the bundled table
does if that one lists it and the user's table does not have the name; and the rules abbreviate it when neither table
lists it, and only then. -/
theorem resolve_listed (user bundled : Table Text) (asked : List Question) (name : Text) (override : Option Text)
    (h : override.bind Text.trimmed? = none) :
    let answer := (((ofTables user bundled).askAll asked).2.resolve name override).1
    (Lists user name → ∃ key, (key, answer.text) ∈ user ∧ SameName key name ∧ answer.provenance = .user) ∧
      ((∀ key ∈ user.keys, ¬SameName key name) → Lists bundled name →
        ∃ key, (key, answer.text) ∈ bundled ∧ SameName key name ∧ answer.provenance = .bundled) ∧
      (answer.provenance = .rules ↔ ¬Lists user name ∧ ¬Lists bundled name) := by
  simp only [resolve_askAll user bundled asked name override h]
  rcases get?_keyed user name with ⟨key, short, hget, hentry, hsame, hlists⟩ | ⟨hget, hlists⟩
  · have hanswer : (ofTables user bundled).lookup name.collapse = ⟨short, .user⟩ := by simp [lookup, ofTables, hget]
    rw [hanswer]
    refine ⟨fun _ => ⟨key, hentry, hsame, rfl⟩, fun hnone => ?_, by simp [hlists]⟩
    exact absurd hsame (hnone key (List.mem_map_of_mem hentry))
  · rcases get?_keyed bundled name with ⟨key, short, hget', hentry, hsame, hlists'⟩ | ⟨hget', hlists'⟩
    · have hanswer : (ofTables user bundled).lookup name.collapse = ⟨short, .bundled⟩ := by
        simp [lookup, ofTables, hget, hget']
      rw [hanswer]
      exact ⟨fun hu => absurd hu hlists, fun _ _ => ⟨key, hentry, hsame, rfl⟩, by simp [hlists']⟩
    · have hanswer : ((ofTables user bundled).lookup name.collapse).provenance = .rules := by
        simp [lookup, ofTables, hget, hget']
      exact ⟨fun hu => absurd hu hlists, fun _ hb => absurd hb hlists', by simp [hanswer, hlists, hlists']⟩

/-- The user's table has two spellings of one name, and neither is the one that is asked for; the second journal is in
the bundled table only. -/
theorem resolve_listed_folded :
    let user : Table Text := Table.ofStrings [("Straße  Review", "S."), (" STRASSE Review ", "Str. Rev.")]
    let bundled : Table Text := Table.ofStrings [("Tax Law", "T.L."), ("Straße Review", "St. R.")]
    let journals := ((ofTables user bundled).askAll [⟨"Tax  Law".toList, none⟩]).2
    (∃ key, (key, (journals.resolve "strasse \t review" none).1.text) ∈ user ∧ SameName key "strasse \t review" ∧
        (journals.resolve "strasse \t review" none).1.provenance = .user) ∧
      ∃ key, (key, (journals.resolve "TAX LAW" (some " ".toList)).1.text) ∈ bundled ∧ SameName key "TAX LAW" ∧
        (journals.resolve "TAX LAW" (some " ".toList)).1.provenance = .bundled := by
  intro user bundled journals
  have hfirst := (resolve_listed user bundled [⟨"Tax  Law".toList, none⟩] "strasse \t review" none rfl).1
    (by decide +kernel)
  have hsecond := (resolve_listed user bundled [⟨"Tax  Law".toList, none⟩] "TAX LAW" (some " ".toList)
    (by decide +kernel)).2.1 (by decide +kernel) (by decide +kernel)
  exact ⟨hfirst, hsecond⟩

/-- **A key with two spaces between its words is not found**: the user's table has this very name, and the name is left
to the rules. -/
theorem listed_not_found : ∃ (user : Table Text) (name : Text),
    name ∈ user.keys ∧ name.blank = false ∧ ((ofTables user []).resolve name none).1.provenance = .rules :=
  ⟨Table.ofStrings [("Foo  Law", "F.L.")], "Foo  Law", by decide, by decide, by decide +kernel⟩

end Journals

end Footcite
