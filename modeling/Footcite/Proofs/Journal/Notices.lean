import Footcite.Proofs.Desk
import Mathlib.Data.List.Induction
import Mathlib.Data.List.Nodup

/-!
# Journals that are asked again and again

Journals are asked for abbreviations one after another (`Journals.askAll`). Each answer is the one that new journals with
the same tables give to the question alone (`Journals.askAll_fst`), and the journals note each name that they abbreviate
by rule when it first comes up, and never again (`Journals.Noted.askAll`). What carries this through the questions is that
a name which only the rules abbreviate is answered from memory exactly when it has been noted (`Journals.Noted`).

Work at a desk asks questions too, whether it ends well or not: what the journals have noted before, they have noted
after it, and some names more (`Editing.Keeping`, `Editing.Asking.keeping`).
-/

namespace Footcite

/-- One more element is one more entry if it is new. -/
theorem List.eraseDups_concat {α : Type} [BEq α] [LawfulBEq α] (xs : List α) (x : α) :
    (xs ++ [x]).eraseDups = xs.eraseDups ++ if x ∈ xs then [] else [x] := by
  rw [List.eraseDups_append]
  congr 1
  by_cases hmem : x ∈ xs <;> simp [List.removeAll, List.eraseDups_cons, hmem]

/-- No entry comes twice. -/
theorem List.nodup_eraseDups {α : Type} [BEq α] [LawfulBEq α] (xs : List α) : xs.eraseDups.Nodup := by
  induction xs using List.reverseRecOn with
  | nil => exact List.nodup_nil
  | append_singleton xs x ih =>
    rw [List.eraseDups_concat]
    split
    · rwa [List.append_nil]
    · next hx =>
      refine ih.append (List.nodup_singleton x) ?_
      rw [List.disjoint_singleton, List.mem_eraseDups]
      exact hx

/-- A question to journals: the name as it is written, and the short name that the source itself gives. -/
structure Journals.Question where
  name : Text
  override : Option Text := none
  deriving Repr, DecidableEq

namespace Journals

variable {user bundled : Table Text} {j j' : Journals}

/-- Asks one question after another. -/
def askAll (j : Journals) : List Question → List Abbreviation × Journals
  | [] => ([], j)
  | q :: rest =>
    let (a, j) := j.resolve q.name q.override
    let (more, j) := askAll j rest
    (a :: more, j)

/-- The name that a question leaves to the rules, its blanks collapsed: no short name is given that could be used, and
neither table has the name. -/
def leftToRules? (user bundled : Table Text) (q : Question) : Option Text :=
  match q.override.bind Text.trimmed? with
  | some _ => none
  | none =>
    let name := q.name.collapse
    if (user.get? name.fold).isNone && (bundled.get? name.fold).isNone then some name else none

/-- When a question leaves a name to the rules. -/
theorem leftToRules?_eq_some {q : Question} {name : Text} : leftToRules? user bundled q = some name ↔
    q.override.bind Text.trimmed? = none ∧
      ((user.get? name.fold).isNone && (bundled.get? name.fold).isNone) = true ∧ q.name.collapse = name := by
  unfold leftToRules?
  cases q.override.bind Text.trimmed? with
  | some short => simp
  | none =>
    simp only [Option.ite_none_right_eq_some, Option.some.injEq, true_and]
    constructor
    · rintro ⟨hlisted, rfl⟩
      exact ⟨hlisted, rfl⟩
    · rintro ⟨hlisted, rfl⟩
      exact ⟨hlisted, rfl⟩

/-- The notice of a name that is abbreviated by rule. -/
def byRule (name : Text) : Notice := ⟨name, name.abbreviate⟩

/-- The notice of a name is among those of several names exactly when the name is. -/
theorem mem_byRule {names : List Text} {name : Text} : byRule name ∈ names.eraseDups.map byRule ↔ name ∈ names := by
  rw [List.mem_map_of_injective fun _ _ he => congrArg Notice.name he, List.mem_eraseDups]

/-- Of several names, each has one notice. -/
theorem filter_byRule {names : List Text} {name : Text} (h : name ∈ names) :
    (names.eraseDups.map byRule).filter (·.name = name) = [byRule name] := by
  have hcount : names.eraseDups.count name = 1 :=
    List.count_eq_one_of_mem (List.nodup_eraseDups names) (List.mem_eraseDups.mpr h)
  rw [List.filter_map]
  show (names.eraseDups.filter (· = name)).map byRule = _
  rw [List.filter_eq, hcount]
  rfl

/-! ## Looking up -/

/-- A name is abbreviated by rule when neither table has it. -/
theorem lookup_provenance (j : Journals) (name : Text) : (j.lookup name).provenance = .rules ↔
    ((j.user.get? name.fold).isNone && (j.bundled.get? name.fold).isNone) = true := by
  unfold lookup
  cases j.user.get? name.fold <;> cases j.bundled.get? name.fold <;> simp

/-- What is abbreviated by rule is so as the rules say. -/
theorem lookup_text (h : (j.lookup name).provenance = .rules) : (j.lookup name).text = name.abbreviate := by
  unfold lookup at h ⊢
  cases hu : j.user.get? name.fold <;> cases hb : j.bundled.get? name.fold <;> simp_all

/-! ## Notices -/

/-- **The names noted are these**, each once and in the order of their first coming; and of the names that only the rules
abbreviate, these and no others are answered from memory. -/
structure Noted (names : List Text) (j : Journals) : Prop where
  notices : j.notices = names.eraseDups.map byRule
  known : ∀ name, (j.lookup name).provenance = .rules → ((j.answers.get? name).isSome = true ↔ name ∈ names)

/-- New journals have noted nothing. -/
theorem ofTables_noted (user bundled : Table Text) : (ofTables user bundled).Noted [] := by
  refine ⟨rfl, ?_⟩
  intro name _
  simp [ofTables]

namespace Noted

variable {names : List Text}

/-- Answering a name that only the rules abbreviate notes it, if it is not noted yet. -/
theorem answer_rules (h : j.Noted names) {name : Text} (hn : (j.lookup name).provenance = .rules) :
    (j.answer name).2.Noted (names ++ [name]) := by
  unfold answer
  cases ha : j.answers.get? name with
  | some a =>
    have hmem : name ∈ names := (h.known name hn).mp (by rw [ha]; rfl)
    refine ⟨by rw [List.eraseDups_concat, if_pos hmem, List.append_nil]; exact h.notices, ?_⟩
    intro name' hn'
    rw [h.known name' hn', List.mem_append, List.mem_singleton]
    constructor
    · exact .inl
    · rintro (hm | rfl)
      · exact hm
      · exact hmem
  | none =>
    have hmem : name ∉ names := by
      intro hmem
      have := (h.known name hn).mpr hmem
      rw [ha] at this
      cases this
    refine ⟨?_, ?_⟩
    · simp only [if_pos hn, lookup_text hn]
      rw [List.eraseDups_concat, if_neg hmem, h.notices, List.map_append]
      rfl
    · intro name' hn'
      have hn' : (j.lookup name').provenance = .rules := hn'
      simp only [Table.get?_set, List.mem_append, List.mem_singleton]
      split
      · next heq => simp [heq]
      · next hne => simpa [Ne.symm hne] using h.known name' hn'

/-- Answering a name that a table has notes nothing. -/
theorem answer_listed (h : j.Noted names) {name : Text} (hn : (j.lookup name).provenance ≠ .rules) :
    (j.answer name).2.Noted names := by
  unfold answer
  cases ha : j.answers.get? name with
  | some a => exact h
  | none =>
    refine ⟨by simp only [if_neg hn]; exact h.notices, ?_⟩
    intro name' hn'
    have hn' : (j.lookup name').provenance = .rules := hn'
    have hne : name ≠ name' := by
      rintro rfl
      exact hn hn'
    simp only [Table.get?_set, if_neg hne]
    exact h.known name' hn'

/-- **One question** notes the name that it leaves to the rules. -/
theorem resolve (h : j.Noted names) (q : Question) :
    (j.resolve q.name q.override).2.Noted (names ++ (leftToRules? j.user j.bundled q).toList) := by
  unfold Journals.resolve leftToRules?
  cases q.override.bind Text.trimmed? with
  | some short => simpa using h
  | none =>
    have hrules := j.lookup_provenance q.name.collapse
    simp only
    split
    · next hn => exact h.answer_rules (hrules.mpr hn)
    · next hn => simpa using h.answer_listed fun hp => hn (hrules.mp hp)

/-- **All questions** note the names that they leave to the rules. -/
theorem askAll : ∀ {j : Journals} {names : List Text} (qs : List Question), j.Serves user bundled → j.Noted names →
    (j.askAll qs).2.Serves user bundled ∧
      (j.askAll qs).2.Noted (names ++ qs.filterMap (leftToRules? user bundled))
  | _, _, [], hs, h => ⟨hs, by simpa [Journals.askAll] using h⟩
  | _, _, q :: qs, hs, h => by
    have hs' := (hs.resolve hs q.name q.override).2
    have h' := h.resolve q
    rw [hs.user, hs.bundled] at h'
    obtain ⟨hserves, hnoted⟩ := askAll qs hs' h'
    refine ⟨hserves, ?_⟩
    rw [List.append_assoc] at hnoted
    have hcons : (leftToRules? user bundled q).toList ++ qs.filterMap (leftToRules? user bundled) =
        (q :: qs).filterMap (leftToRules? user bundled) := by
      rw [List.filterMap_cons]
      cases leftToRules? user bundled q <;> rfl
    rw [hcons] at hnoted
    exact hnoted

end Noted

/-! ## Answers -/

/-- **What was asked before changes no answer.** -/
theorem askAll_fst (h' : j'.Serves user bundled) : ∀ {j : Journals} (_ : j.Serves user bundled) (qs : List Question),
    (j.askAll qs).1 = qs.map fun q => (j'.resolve q.name q.override).1
  | _, _, [] => rfl
  | _, h, q :: qs => by
    obtain ⟨ha, hs⟩ := h.resolve h' q.name q.override
    have hrest := askAll_fst h' hs qs
    simp only [askAll, List.map_cons, ha, hrest]

/-! ## What the journals keep -/

/-- **The journals answer from the tables, and have noted these names.** -/
structure Keeps (user bundled : Table Text) (names : List Text) (j : Journals) : Prop extends
  Serves user bundled j, Noted names j

/-- New journals keep nothing. -/
theorem ofTables_keeps (user bundled : Table Text) : (ofTables user bundled).Keeps (keyed user) (keyed bundled) [] :=
  ⟨ofTables_serves user bundled, ofTables_noted user bundled⟩

namespace Keeps

variable {names names' : List Text}

/-- A question adds the name that it leaves to the rules. -/
theorem resolve (h : j.Keeps user bundled names) (q : Question) :
    (j.resolve q.name q.override).2.Keeps user bundled (names ++ (leftToRules? user bundled q).toList) := by
  have hnoted := h.toNoted.resolve q
  rw [h.user, h.bundled] at hnoted
  exact ⟨(h.toServes.resolve h.toServes q.name q.override).2, hnoted⟩

/-- A name that is left to the rules is abbreviated so. -/
theorem resolve_text (h : j.Keeps user bundled names) {q : Question} {name : Text}
    (hq : leftToRules? user bundled q = some name) : (j.resolve q.name q.override).1.text = name.abbreviate := by
  obtain ⟨hnone, hlisted, rfl⟩ := leftToRules?_eq_some.mp hq
  rw [← h.user, ← h.bundled] at hlisted
  simp only [Journals.resolve, hnone, h.answer_fst]
  exact lookup_text ((j.lookup_provenance _).mpr hlisted)

/-- A notice is there exactly when its name has been noted. -/
theorem mem_notices (h : j.Keeps user bundled names) {name : Text} : byRule name ∈ j.notices ↔ name ∈ names := by
  rw [h.notices, mem_byRule]

/-- The notices that were there come first. -/
theorem notices_grow (h : j.Keeps user bundled names) (h' : j'.Keeps user bundled names') (hgrows : names <+: names') :
    j.notices ++ j'.notices.drop j.notices.length = j'.notices := by
  have hprefix : j.notices <+: j'.notices := by
    obtain ⟨more, rfl⟩ := hgrows
    rw [h.notices, h'.notices, List.eraseDups_append, List.map_append]
    exact List.prefix_append _ _
  exact List.prefix_iff_eq_append.mp hprefix

end Keeps

end Journals

/-! ## Work at the desk -/

namespace Editing

variable {user bundled : Table Text} {α β : Type}

/-- **The work keeps what the journals have noted**, however it ends, and may add to it. -/
def Keeping (user bundled : Table Text) (x : Editing α) : Prop :=
  ∀ k names, k.journals.Keeps user bundled names →
    ∃ names', names <+: names' ∧ (outcome x k).2.journals.Keeps user bundled names'

namespace Keeping

/-- Work that leaves the journals alone. -/
theorem of_journals_eq {x : Editing α} (h : ∀ k, (outcome x k).2.journals = k.journals) : Keeping user bundled x := by
  intro k names hk
  exact ⟨names, List.prefix_rfl, (h k).symm ▸ hk⟩

theorem pure (a : α) : Keeping user bundled (Pure.pure a) := of_journals_eq fun _ => rfl

theorem liftM (x : Except Failure α) : Keeping user bundled (MonadLiftT.monadLift x : Editing α) :=
  of_journals_eq fun _ => rfl

theorem note (e : Event) : Keeping user bundled (Editing.note e) := of_journals_eq fun _ => rfl

theorem get : Keeping user bundled (MonadState.get : Editing Desk) := of_journals_eq fun _ => rfl

theorem abbreviate (name : Text) (override : Option Text) : Keeping user bundled (Editing.abbreviate name override) :=
  fun _ names hk => ⟨_, List.prefix_append names _, hk.resolve ⟨name, override⟩⟩

theorem adapt {x : Editing α} (f : Failure → Failure) (hx : Keeping user bundled x) :
    Keeping user bundled (ExceptT.adapt f x : Editing α) := hx

theorem bind {x : Editing α} {f : α → Editing β} (hx : Keeping user bundled x) (hf : ∀ a, Keeping user bundled (f a)) :
    Keeping user bundled (x >>= f) := by
  intro k names hk
  obtain ⟨names₁, hgrows, h⟩ := hx k names hk
  rw [outcome_bind]
  rcases ho : outcome x k with ⟨e | a, k₁⟩ <;> rw [ho] at h
  · exact ⟨names₁, hgrows, h⟩
  · obtain ⟨names', hgrows', h'⟩ := hf a k₁ names₁ h
    exact ⟨names', hgrows.trans hgrows', h'⟩

/-- What is kept when the work ends well. -/
theorem gives {x : Editing α} {a : α} {k k' : Desk} {names : List Text} (hx : Keeping user bundled x)
    (h : Gives x k a k') (hk : k.journals.Keeps user bundled names) :
    ∃ names', names <+: names' ∧ k'.journals.Keeps user bundled names' := by
  obtain ⟨names', hgrows, hk'⟩ := hx k names hk
  rw [h] at hk'
  exact ⟨names', hgrows, hk'⟩

end Keeping

/-- **Work that only asks keeps what the journals have noted.** -/
theorem Asking.keeping {x : Editing α} (h : Asking (fun _ => True) x) : Keeping user bundled x := by
  induction h with
  | liftM x => exact .liftM x
  | note e _ => exact .note e
  | abbreviate name override => exact .abbreviate name override
  | adapt f _ ih => exact ih.adapt f
  | bind _ _ ihx ihf => exact ihx.bind ihf

end Editing

end Footcite
