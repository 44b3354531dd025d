import Footcite.Table
import Mathlib.Data.List.Infix

/-!
# Replacing phrases

`Text.replace` puts a new phrase for an old one from left to right (`Text.replace_append_self`, `Text.replace_cons`).
Rules that replace one phrase each may be put in one after another. If no phrase can begin in what an earlier rule has
put in, or run into it (`Text.Clear`), then the phrases that are found are those of the text as it was, and all the
rules together come to a choice of its phrases that are replaced at once (`Text.Put`, `Text.put_foldl`).
-/

namespace Footcite.Text

variable {old new t u : Text}

/-! ## One phrase -/

/-- What is still to be dropped may be dropped at once. -/
theorem replaceFrom_eq (k : Nat) (t : Text) : replaceFrom old new k t = replaceFrom old new 0 (t.drop k) := by
  induction t generalizing k with
  | nil => cases k <;> rfl
  | cons c t ih =>
    cases k with
    | zero => rfl
    | succ k => exact ih k

@[simp] theorem replace_nil (old new : Text) : replace [] old new = [] := rfl

/-- Where the old phrase stands, the new one takes its place. -/
theorem replace_append_self (h : old ≠ []) (t : Text) : replace (old ++ t) old new = new ++ replace t old new := by
  obtain ⟨c, rest, rfl⟩ := List.exists_cons_of_ne_nil h
  have hfront : (c :: rest).isPrefixOf (c :: (rest ++ t)) = true :=
    List.isPrefixOf_iff_prefix.mpr (List.prefix_append (c :: rest) t)
  simp only [replace, List.cons_append, replaceFrom, hfront, if_true]
  rw [replaceFrom_eq]
  simp

/-- Where it does not stand, the text goes on as it is. -/
theorem replace_cons {c : Char} (h : ¬old <+: c :: t) : replace (c :: t) old new = c :: replace t old new := by
  simp [replace, replaceFrom, h]

/-- **Taking a text apart as the phrase is replaced in it**: at the places where it stands, and else by characters. -/
theorem cutAtPhrase {P : Text → Prop} (hne : old ≠ []) (nil : P []) (phrase : ∀ t, P t → P (old ++ t))
    (cons : ∀ c t, ¬old <+: c :: t → P t → P (c :: t)) : ∀ t, P t := by
  intro t
  induction hn : t.length using Nat.strongRecOn generalizing t with
  | ind n ih =>
    cases t with
    | nil => exact nil
    | cons c t =>
      by_cases hold : old <+: c :: t
      · obtain ⟨rest, hrest⟩ := hold
        have hshorter : rest.length < n := by
          have := congrArg List.length hrest
          have := List.length_pos_of_ne_nil hne
          simp only [List.length_append] at *
          omega
        rw [← hrest]
        exact phrase rest (ih _ hshorter rest rfl)
      · have hshorter : t.length < n := by
          rw [← hn]
          exact Nat.lt_succ_self _
        exact cons c t hold (ih _ hshorter t rfl)

/-! ## Phrases that keep apart -/

/-- Whether one of two texts begins with the other. -/
def agree : Text → Text → Bool
  | [], _ => true
  | _ :: _, [] => true
  | c :: t, d :: u => decide (c.toNat = d.toNat) && agree t u

theorem agree_of_begins : ∀ {t u : Text}, t <+: u ∨ u <+: t → agree t u = true
  | [], _, _ => by simp [agree]
  | _ :: _, [], _ => by simp [agree]
  | c :: t, d :: u, h => by
    have hfront : c = d ∧ (t <+: u ∨ u <+: t) := by
      rcases h with h | h
      · exact ⟨(List.cons_prefix_cons.mp h).1, .inl (List.cons_prefix_cons.mp h).2⟩
      · exact ⟨(List.cons_prefix_cons.mp h).1.symm, .inr (List.cons_prefix_cons.mp h).2⟩
    simp [agree, hfront.1, agree_of_begins hfront.2]

/-- **The phrase begins nowhere in the text**, whatever follows the text. -/
def NeverBegins (phrase : Text) : Text → Prop
  | [] => True
  | c :: t => agree phrase (c :: t) = false ∧ NeverBegins phrase t

instance decidableNeverBegins (phrase : Text) : ∀ t : Text, Decidable (NeverBegins phrase t)
  | [] => inferInstanceAs (Decidable True)
  | _ :: t =>
    have := decidableNeverBegins phrase t
    inferInstanceAs (Decidable (_ ∧ _))

/-- **The phrase neither begins in the text nor runs into it**, wherever the text stands. -/
def Clear (phrase t : Text) : Prop := NeverBegins phrase t ∧ NeverBegins t phrase.tail

instance (phrase t : Text) : Decidable (Clear phrase t) := inferInstanceAs (Decidable (_ ∧ _))

/-- At no place of the text does the phrase begin. -/
theorem NeverBegins.of_suffix {phrase v : Text} : ∀ {t : Text}, NeverBegins phrase t → v <:+ t → v ≠ [] →
    ¬(phrase <+: v ∨ v <+: phrase)
  | [], _, hv, hne, _ => hne (List.suffix_nil.mp hv)
  | _ :: _, h, hv, hne, hmeet => by
    rcases List.suffix_cons_iff.mp hv with rfl | hv
    · obtain ⟨hfront, -⟩ := h
      rw [agree_of_begins hmeet] at hfront
      cases hfront
    · exact NeverBegins.of_suffix h.2 hv hne hmeet

/-- A text in which the phrase never begins stays as it is. -/
theorem replace_append_of_neverBegins (h : NeverBegins old t) (u : Text) :
    replace (t ++ u) old new = t ++ replace u old new := by
  induction t with
  | nil => rfl
  | cons c t ih =>
    have hstart : ¬old <+: c :: (t ++ u) := fun hold =>
      h.of_suffix List.suffix_rfl (List.cons_ne_nil c t)
        (List.prefix_or_prefix_of_prefix hold (List.prefix_append (c :: t) u))
    rw [List.cons_append, replace_cons hstart, ih h.2]
    rfl

/-- A phrase that begins in a text and does not run into the next ends in the first. -/
theorem prefix_of_clear (h : NeverBegins u old.tail) {c : Char} {v : Text} (hlong : old <+: c :: (t ++ (u ++ v))) :
    old <+: c :: t := by
  rcases List.prefix_or_prefix_of_prefix hlong (List.prefix_append (c :: t) (u ++ v)) with hshort | ⟨rest, hrest⟩
  · exact hshort
  · by_contra hold
    rw [← hrest] at hlong
    have hrun : rest <+: u ++ v := (List.prefix_append_right_inj (c :: t)).mp hlong
    have hsuffix : rest <:+ old.tail := by
      rw [← hrest]
      exact List.suffix_append t rest
    have hne : rest ≠ [] := by
      rintro rfl
      exact hold (by rw [← hrest, List.append_nil])
    exact h.of_suffix hsuffix hne (List.prefix_or_prefix_of_prefix (List.prefix_append u v) hrun)

/-- What stands before a text that the phrase does not run into is replaced by itself. -/
theorem replace_append_of_clear (hne : old ≠ []) (h : NeverBegins u old.tail) (t v : Text) :
    replace (t ++ (u ++ v)) old new = replace t old new ++ replace (u ++ v) old new := by
  induction t using cutAtPhrase hne with
  | nil => rfl
  | phrase t ih => rw [List.append_assoc, replace_append_self hne, replace_append_self hne, ih, List.append_assoc]
  | cons c t hold ih =>
    have hstart : ¬old <+: c :: (t ++ (u ++ v)) := fun hlong => hold (prefix_of_clear h hlong)
    rw [List.cons_append, replace_cons hstart, replace_cons hold, ih]
    rfl

/-! ## Several phrases at once -/

/-- **Some phrases of a text replaced at once**, each by what a rule has for it. -/
inductive Put (rules : Table Text) : Text → Text → Prop
  | kept (t : Text) : Put rules t t
  | put (before : Text) {phrase short after after' : Text} :
      (phrase, short) ∈ rules → Put rules after after' →
        Put rules (before ++ phrase ++ after) (before ++ short ++ after')

namespace Put

variable {rules rules' : Table Text} {t' u' : Text}

theorem append_left (v : Text) (h : Put rules t t') : Put rules (v ++ t) (v ++ t') := by
  cases h with
  | kept => exact .kept _
  | put before he h =>
    have := Put.put (v ++ before) he h
    simpa only [List.append_assoc] using this

theorem append (ht : Put rules t t') (hu : Put rules u u') : Put rules (t ++ u) (t' ++ u') := by
  induction ht with
  | kept v => exact hu.append_left v
  | put before he _ ih =>
    have := Put.put before he ih
    simpa only [List.append_assoc] using this

/-- Replacing one phrase everywhere. -/
theorem replace (hne : old ≠ []) (hmem : (old, new) ∈ rules) (t : Text) : Put rules t (t.replace old new) := by
  induction t using cutAtPhrase hne with
  | nil => exact .kept []
  | phrase t ih =>
    rw [replace_append_self hne]
    exact .put [] hmem ih
  | cons c t hold ih =>
    rw [replace_cons hold]
    exact ih.append_left [c]

/-- **One more rule**: a phrase that keeps apart from all that was put in is found where it was before. -/
theorem then_replace (hne : old ≠ []) (hclear : ∀ e ∈ rules, Clear old e.2) (hrules : ∀ e ∈ rules, e ∈ rules')
    (hmem : (old, new) ∈ rules') (h : Put rules t t') : Put rules' t (t'.replace old new) := by
  induction h with
  | kept t => exact .replace hne hmem t
  | @put before phrase short after after' he _ ih =>
    obtain ⟨hbegins, hruns⟩ := hclear _ he
    have hparts : (before ++ short ++ after').replace old new =
        before.replace old new ++ (short ++ after'.replace old new) := by
      rw [List.append_assoc, replace_append_of_clear hne hruns, replace_append_of_neverBegins hbegins]
    rw [hparts, List.append_assoc]
    exact (Put.replace hne hmem before).append (.put [] (hrules _ he) ih)

end Put

/-- **Rules one after another** replace some phrases of the text at once, if no phrase comes near what an earlier rule
has put in. -/
theorem put_foldl {rules done : Table Text} (hne : ∀ e ∈ rules, e.1 ≠ []) {t t' : Text} (h : Put done t t')
    (hclear : (done ++ rules).Pairwise fun e e' => Clear e'.1 e.2) :
    Put (done ++ rules) t (rules.foldl (fun t (phrase, short) => t.replace phrase short) t') := by
  induction rules generalizing done t' with
  | nil => simpa using h
  | cons e rules ih =>
    obtain ⟨he, hne⟩ := List.forall_mem_cons.mp hne
    have hsplit : done ++ e :: rules = (done ++ [e]) ++ rules := by simp
    have hearlier : ∀ d ∈ done, Clear e.1 d.2 := fun d hd =>
      (List.pairwise_append.mp hclear).2.2 d hd e List.mem_cons_self
    rw [hsplit] at hclear ⊢
    exact ih hne (h.then_replace he hearlier (by simp +contextual) (by simp)) hclear

end Footcite.Text
