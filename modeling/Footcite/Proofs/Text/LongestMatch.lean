import Footcite.Proofs.Text.Blanks
import Footcite.Proofs.Text.Letters
import Footcite.Proofs.Text.Phrases

/-!
# The longest match comes first

A recogniser that prefers the longer of two matches need not find the longest one first: a longer first part may leave
less for the second. It does where the second part refuses what the first leaves after a shorter match. So a recogniser
leads (`Recogniser.Leads`) when its first match is the longest and, after any other match, the text goes on in a way
that is told by a condition. Recognisers that lead make up recognisers that lead, where what comes next refuses or
takes over what is left on that condition. Both are told by the first characters, blanks aside
(`Recogniser.Begins`, `Text.GoesOnIn`), or by the words that a match begins with (`Recogniser.BeginsWith`).
-/

namespace Footcite

/-! ## First characters -/

namespace Text

variable {p q : Char → Bool} {t : Text}

/-- The first character is of the class. -/
def StartsIn (p : Char → Bool) (t : Text) : Prop := ∃ c rest, t = c :: rest ∧ p c = true

/-- Blanks aside, the first character is of the class. -/
def GoesOnIn (p : Char → Bool) (t : Text) : Prop := t.trimStart.StartsIn p

theorem StartsIn.imp (h : t.StartsIn p) (hpq : ∀ c, p c = true → q c = true) : t.StartsIn q := by
  obtain ⟨c, rest, ht, hc⟩ := h
  exact ⟨c, rest, ht, hpq c hc⟩

theorem GoesOnIn.imp (h : t.GoesOnIn p) (hpq : ∀ c, p c = true → q c = true) : t.GoesOnIn q := StartsIn.imp h hpq

/-- A text does not start in two classes that lie apart. -/
theorem StartsIn.not (h : t.StartsIn p) (hpq : ∀ c, p c = true → q c = false) : ¬t.StartsIn q := by
  rintro ⟨c, rest, rfl, hq⟩
  obtain ⟨c', rest', ht, hp⟩ := h
  obtain ⟨rfl, -⟩ := List.cons.inj ht
  simp [hpq c hp] at hq

/-- What starts with no blank goes on so. -/
theorem StartsIn.goesOnIn (h : t.StartsIn p) (hp : ∀ c, p c = true → isBlank c = false) : t.GoesOnIn p := by
  obtain ⟨c, rest, rfl, hc⟩ := h
  exact ⟨c, rest, trimStart_cons (hp c hc) rest, hc⟩

theorem not_startsIn_trimStart : ¬t.trimStart.StartsIn isBlank := by
  rintro ⟨c, rest, ht, hc⟩
  rw [isBlank_of_trimStart ht] at hc
  cases hc

end Text

namespace Recogniser

variable {a b : Recogniser} {p q : Char → Bool} {t : Text}

/-- Where the first part is not matched, nothing comes next. -/
theorem next_eq_nil (h : a t = []) : a.next b t = [] := by rw [next, h, List.flatMap_nil]

theorem ne_nil_of_next (h : a.next b t ≠ []) : a t ≠ [] := fun hnone => h (next_eq_nil hnone)

/-- One of the alternatives is matched. -/
theorem ne_nil_of_or (h : a.or b t ≠ []) : a t ≠ [] ∨ b t ≠ [] := by
  by_contra! hnone
  exact h (by rw [Recogniser.or, hnone.1, hnone.2, List.append_nil])

/-- **A match begins with a character of the class.** -/
def Begins (a : Recogniser) (p : Char → Bool) : Prop := ∀ t, a t ≠ [] → t.StartsIn p

namespace Begins

theorem imp (ha : Begins a p) (h : ∀ c, p c = true → q c = true) : Begins a q := fun t ht => (ha t ht).imp h

/-- There is no match where the text begins with a character of another class. -/
theorem refuses (ha : Begins a p) (hpq : ∀ c, p c = true → q c = false) (ht : t.StartsIn q) : a t = [] :=
  by_contra fun hne => (ha t hne).not hpq ht

/-- The same, the other way about. -/
theorem refuses' (ha : Begins a p) (hqp : ∀ c, q c = true → p c = false) (ht : t.StartsIn q) : a t = [] :=
  by_contra fun hne => ht.not hqp (ha t hne)

theorem one : Begins (one p) p := by
  intro t ht
  cases t with
  | nil => exact absurd rfl ht
  | cons c rest => exact ⟨c, rest, rfl, by_contra fun hc => ht (if_neg hc)⟩

/-- A sign is met under itself. -/
theorem oneOf {cs ls : Text} (h : (cs.all fun l => ls.contains l && sameLetter l l) = true) :
    Begins (oneOf cs) (isOneOf ls) := one.imp fun _ => isOneOf_of_contains h

theorem word (l : Char) (ls : Text) : Begins (word (l :: ls)) (sameLetter l) := by
  intro t ht
  cases t with
  | nil => exact absurd rfl ht
  | cons c rest => exact ⟨c, rest, rfl, by_contra fun hc => ht (if_neg hc)⟩

theorem next (ha : Begins a p) : Begins (a.next b) p := fun t ht => ha t (ne_nil_of_next ht)

theorem optional_next (ha : Begins a p) (hb : Begins b p) : Begins (a.optional.next b) p := by
  intro t ht
  by_contra hn
  have hat : a t = [] := by_contra fun hat => hn (ha t hat)
  have hbt : b t = [] := by_contra fun hbt => hn (hb t hbt)
  exact ht (by simp [Recogniser.next, Recogniser.optional, Recogniser.or, hat, hbt])

end Begins

/-! ## First words -/

/-- Words of which no text begins with both. -/
def WordsApart (w w' : Text) : Prop := ((w.zip w').any fun ls => decide (Apart ls.1 ls.2)) = true

instance (w w' : Text) : Decidable (WordsApart w w') := instDecidableEqBool _ _

theorem WordsApart.word_eq_nil : ∀ {w w' t : Text}, WordsApart w w' → word w t ≠ [] → word w' t = []
  | [], _, _, h, _ => by cases h
  | _ :: _, [], _, h, _ => by cases h
  | _ :: _, _ :: _, [], _, _ => rfl
  | l :: ls, l' :: ls', c :: rest, h, ht => by
    rw [WordsApart, List.zip_cons_cons, List.any_cons, Bool.or_eq_true, decide_eq_true_eq] at h
    simp only [word] at ht ⊢
    split at ht
    · next hc =>
      split
      · next hc' =>
        rcases h with h | h
        · simp [h.sameLetter hc] at hc'
        · exact word_eq_nil h ht
      · rfl
    · exact absurd rfl ht

/-- A text that begins with a word begins with its first letter. -/
theorem startsIn_of_word {ls w : Text} (h : w.head?.any ls.contains = true) (ht : word w t ≠ []) :
    t.StartsIn (isOneOf ls) := by
  cases w with
  | nil => cases h
  | cons l w =>
    have hl : l ∈ ls := List.contains_iff_mem.mp h
    exact (Begins.word l w t ht).imp fun c => isOneOf_of_mem hl

/-- **A match begins with one of some words.** -/
def BeginsWith (a : Recogniser) (words : List Text) : Prop := ∀ t, a t ≠ [] → ∃ w ∈ words, word w t ≠ []

namespace BeginsWith

variable {words words' : List Text}

theorem word (w : Text) : BeginsWith (word w) [w] := fun _ ht => ⟨w, List.mem_singleton_self w, ht⟩

theorem next (ha : BeginsWith a words) : BeginsWith (a.next b) words := fun t ht => ha t (ne_nil_of_next ht)

theorem or (ha : BeginsWith a words) (hb : BeginsWith b words') : BeginsWith (a.or b) (words ++ words') := by
  intro t ht
  rcases ne_nil_of_or ht with hat | hbt
  · obtain ⟨w, hw, hwt⟩ := ha t hat
    exact ⟨w, List.mem_append_left _ hw, hwt⟩
  · obtain ⟨w, hw, hwt⟩ := hb t hbt
    exact ⟨w, List.mem_append_right _ hw, hwt⟩

/-- Alternatives that begin with a word each. -/
theorem firstOf {alternatives : List Recogniser}
    (h : List.Forall₂ (fun a w => BeginsWith a [w]) alternatives words) : BeginsWith (firstOf alternatives) words := by
  induction h with
  | nil => exact fun _ ht => absurd rfl ht
  | cons ha _ ih => exact ha.or ih

/-- A word begins with its first letter. -/
theorem begins {ls : Text} (ha : BeginsWith a words) (h : (words.all fun w => w.head?.any ls.contains) = true) :
    Begins a (isOneOf ls) := by
  intro t ht
  obtain ⟨w, hw, hwt⟩ := ha t ht
  exact startsIn_of_word (List.all_eq_true.mp h w hw) hwt

/-- What begins with words excludes what begins with others. -/
theorem exclude (ha : BeginsWith a words) (hb : BeginsWith b words')
    (h : ∀ w ∈ words, ∀ w' ∈ words', WordsApart w w') (ht : a t ≠ []) : b t = [] := by
  obtain ⟨w, hw, hwt⟩ := ha t ht
  by_contra hbt
  obtain ⟨w', hw', hwt'⟩ := hb t hbt
  exact hwt' ((h w hw w' hw').word_eq_nil hwt)

/-- Alternatives that begin with words of which no text begins with two. -/
theorem pairwise {alternatives : List Recogniser} (h : List.Forall₂ (fun a w => BeginsWith a [w]) alternatives words)
    (hwords : words.Pairwise WordsApart) : alternatives.Pairwise fun a b => ∀ t, a t ≠ [] → b t = [] := by
  induction h with
  | nil => exact .nil
  | @cons a w _ _ ha hothers ih =>
    obtain ⟨hw, hwords⟩ := List.pairwise_cons.mp hwords
    refine .cons (fun b hb t hat => ?_) (ih hwords)
    obtain ⟨i, hi, rfl⟩ := List.getElem_of_mem hb
    have hbegins := hothers.get (i := i) hi (hothers.length_eq ▸ hi)
    refine ha.exclude hbegins ?_ hat
    simpa using hw _ (List.getElem_mem _)

end BeginsWith

/-! ## The longest match -/

/-- **The first match is the longest**, and after any other the text goes on as the condition says. -/
def Leads (a : Recogniser) (P : Text → Prop) : Prop :=
  ∀ t r rs, a t = r :: rs → ∀ s ∈ rs, r.length ≤ s.length ∧ P s

namespace Leads

variable {P Q : Text → Prop} {r : Text}

theorem imp (ha : Leads a P) (h : ∀ s, P s → Q s) : Leads a Q := fun t r rs ht s hs =>
  ⟨(ha t r rs ht s hs).1, h s (ha t r rs ht s hs).2⟩

/-- The first match is the longest of all. -/
theorem length_le (ha : Leads a P) {rs : List Text} (ht : a t = r :: rs) {s : Text} (hs : s ∈ a t) :
    r.length ≤ s.length := by
  rw [ht] at hs
  rcases List.mem_cons.mp hs with rfl | hs
  · exact Nat.le_refl _
  · exact (ha t r rs ht s hs).1

/-- A match after which the text does not go on so is the first. -/
theorem first (ha : Leads a P) (hr : r ∈ a t) (hn : ¬P r) : ∃ rs, a t = r :: rs := by
  cases ht : a t with
  | nil =>
    rw [ht] at hr
    cases hr
  | cons r' rs =>
    rw [ht] at hr
    rcases List.mem_cons.mp hr with rfl | hr
    · exact ⟨rs, rfl⟩
    · exact absurd (ha t r' rs ht r hr).2 hn

/-- Where there is one match at most, it is the longest. -/
theorem of_single (h : ∀ t, (a t).length ≤ 1) : Leads a P := by
  intro t r rs ht s hs
  have hlength := h t
  rw [ht, List.length_cons] at hlength
  obtain rfl : rs = [] := List.length_eq_zero_iff.mp (by omega)
  cases hs

theorem one {p : Char → Bool} : Leads (one p) P := of_single fun t => by
  cases t with
  | nil => simp [Recogniser.one]
  | cons c rest =>
    simp only [Recogniser.one]
    split <;> simp

theorem word (letters : Text) : Leads (word letters) P := of_single fun t => by
  induction letters generalizing t with
  | nil => simp [Recogniser.word]
  | cons l ls ih =>
    cases t with
    | nil => simp [Recogniser.word]
    | cons c rest =>
      simp only [Recogniser.word]
      split
      · exact ih rest
      · simp

theorem ahead {p : Text → Bool} : Leads (ahead p) P := of_single fun t => by
  simp only [Recogniser.ahead]
  split <;> simp

/-- If the second part refuses what the first leaves after a shorter match, only the longest is gone on from. -/
theorem next_eq (ha : Leads a P) (hb : ∀ s, P s → b s = []) {rs : List Text} (ht : a t = r :: rs) :
    a.next b t = b r := by
  have hrest : rs.flatMap b = [] := List.flatMap_eq_nil_iff.mpr fun s hs => hb s (ha t r rs ht s hs).2
  rw [next, ht, List.flatMap_cons, hrest, List.append_nil]

theorem next (ha : Leads a P) (hb : Leads b Q) (hrefuse : ∀ s, P s → b s = []) : Leads (a.next b) Q := by
  intro t r rs ht
  cases hat : a t with
  | nil => simp [Recogniser.next, hat] at ht
  | cons r' rs' =>
    rw [ha.next_eq hrefuse hat] at ht
    exact hb r' r rs ht

/-- Only one match of the first part is gone on from if there is but one. -/
theorem once_next (ha : Leads a fun _ => False) (hb : Leads b Q) : Leads (a.next b) Q := ha.next hb fun _ h => h.elim

/-- The second part may be left out, and is where the first leaves something after a shorter match. -/
theorem next_left_out (ha : Leads a P) (hb : Leads b Q) (hnone : ∀ t, t ∈ b t) (hleft : ∀ s, P s → b s = [s]) :
    Leads (a.next b) fun s => P s ∨ Q s := by
  intro t r rs ht s hs
  cases hat : a t with
  | nil => simp [Recogniser.next, hat] at ht
  | cons r' rs' =>
    have hrest : rs'.flatMap b = rs' := by
      have := List.flatMap_congr (f := b) (g := fun s => [s]) fun s hs => hleft s (ha t r' rs' hat s hs).2
      rw [this, List.flatMap_singleton']
    rw [Recogniser.next, hat, List.flatMap_cons, hrest] at ht
    have hr' := hnone r'
    cases hbr : b r' with
    | nil =>
      rw [hbr] at hr'
      cases hr'
    | cons r'' rs'' =>
      rw [hbr, List.cons_append] at ht
      obtain ⟨rfl, rfl⟩ := List.cons.inj ht
      rcases List.mem_append.mp hs with hs | hs
      · obtain ⟨hle, hq⟩ := hb r' r'' rs'' hbr s hs
        exact ⟨hle, .inr hq⟩
      · obtain ⟨hle, hp⟩ := ha t r' rs' hat s hs
        exact ⟨Nat.le_trans (hb.length_le hbr hr') hle, .inl hp⟩

/-- Of two alternatives that exclude each other. -/
theorem or (ha : Leads a P) (hb : Leads b P) (h : ∀ t, a t ≠ [] → b t = []) : Leads (a.or b) P := by
  intro t r rs ht
  by_cases hat : a t = []
  · rw [Recogniser.or, hat, List.nil_append] at ht
    exact hb t r rs ht
  · rw [Recogniser.or, h t hat, List.append_nil] at ht
    exact ha t r rs ht

theorem firstOf {alternatives : List Recogniser} (h : ∀ a ∈ alternatives, Leads a P)
    (hexclude : alternatives.Pairwise fun a b => ∀ t, a t ≠ [] → b t = []) : Leads (firstOf alternatives) P := by
  induction alternatives with
  | nil => exact of_single fun t => by simp [Recogniser.firstOf]
  | cons a others ih =>
    obtain ⟨ha, hothers⟩ := List.forall_mem_cons.mp h
    obtain ⟨hfirst, hexclude⟩ := List.pairwise_cons.mp hexclude
    refine ha.or (ih hothers hexclude) fun t hat => ?_
    exact List.flatMap_eq_nil_iff.mpr fun b hb => hfirst b hb t hat

theorem optional (ha : Leads a P) (hi : Inside a) : Leads a.optional fun s => P s ∨ a s ≠ [] := by
  intro t r rs ht s hs
  cases hat : a t with
  | nil =>
    simp only [Recogniser.optional, Recogniser.or, hat, List.nil_append, List.cons.injEq] at ht
    rw [← ht.2] at hs
    cases hs
  | cons r' rs' =>
    simp only [Recogniser.optional, Recogniser.or, hat, List.cons_append, List.cons.injEq] at ht
    obtain ⟨rfl, rfl⟩ := ht
    rcases List.mem_append.mp hs with hs | hs
    · obtain ⟨hlength, hp⟩ := ha t r' rs' hat s hs
      exact ⟨hlength, .inl hp⟩
    · obtain rfl := List.mem_singleton.mp hs
      exact ⟨hi.length_le (by simp [hat]), .inr (by simp [hat])⟩

theorem optional_once (ha : Leads a fun _ => False) (hi : Inside a) : Leads a.optional fun s => a s ≠ [] :=
  (ha.optional hi).imp fun _ hs => hs.resolve_left id

theorem mem_optional (t : Text) : t ∈ a.optional t := by simp [Recogniser.optional, Recogniser.or]

theorem optional_eq_self (h : a t = []) : a.optional t = [t] := by simp [Recogniser.optional, Recogniser.or, h]

theorem mem_upTo : ∀ (n : Nat) (t : Text), t ∈ upTo a n t
  | 0, t => List.mem_singleton_self t
  | n + 1, t => by simp [upTo, Recogniser.optional, Recogniser.or]

theorem upTo_eq_self (h : a t = []) : ∀ n : Nat, upTo a n t = [t]
  | 0 => rfl
  | n + 1 => by simp [upTo, Recogniser.optional, Recogniser.or, Recogniser.next, h]

theorem many (ha : Leads a P) (hi : Inside a) (hrefuse : ∀ s, P s → a s = []) :
    Leads a.many fun s => P s ∨ a s ≠ [] := by
  have hupTo : ∀ n, Leads (upTo a n) fun s => P s ∨ a s ≠ [] := by
    intro n
    induction n with
    | zero => exact of_single fun t => by simp [upTo]
    | succ n ih =>
      have hturn := ha.next_left_out ih (mem_upTo n) fun s hs => upTo_eq_self (hrefuse s hs) n
      refine (hturn.optional (hi.next (hi.upTo n))).imp ?_
      rintro s ((hp | hs) | hs)
      · exact .inl hp
      · exact hs
      · exact .inr (ne_nil_of_next hs)
  exact fun t => hupTo t.length t

theorem many_once (ha : Leads a fun _ => False) (hi : Inside a) : Leads a.many fun s => a s ≠ [] :=
  (ha.many hi fun _ h => h.elim).imp fun _ hs => hs.resolve_left id

theorem many_eq_self (h : a t = []) : a.many t = [t] := upTo_eq_self h t.length

theorem mem_many (t : Text) : t ∈ a.many t := mem_upTo t.length t

end Leads

/-! ## After blanks -/

theorem leads_many_one (hi : Inside (one p)) : Leads (many (one p)) fun s => s.StartsIn p :=
  (Leads.one.many_once hi).imp fun s => Begins.one s

theorem leads_many1_one (hi : Inside (one p)) : Leads (many1 (one p)) fun s => s.StartsIn p :=
  Leads.one.once_next (leads_many_one hi)

theorem leads_blanks : Leads blanks fun s => s.StartsIn isBlank := leads_many_one (Inside.one (by decide))

theorem leads_gap : Leads gap fun s => s.StartsIn isBlank := leads_many1_one (Inside.one (by decide))

/-- **All blanks are taken** before what begins with none. -/
theorem blanks_next (hb : Begins b p) (hp : ∀ c, p c = true → isBlank c = false) (t : Text) :
    blanks.next b t = b t.trimStart := by
  obtain ⟨lead, ht, hlead⟩ := Text.exists_trimStart t
  have hmem : t.trimStart ∈ blanks t := (Accepts.blanks t _).mpr ⟨lead, ht, hlead⟩
  obtain ⟨rs, hrs⟩ := leads_blanks.first hmem Text.not_startsIn_trimStart
  exact leads_blanks.next_eq (fun s => hb.refuses hp) hrs

/-- After blanks the text goes on in the class of what is matched there. -/
theorem goesOnIn_of_next (hb : Begins b p) (hp : ∀ c, p c = true → isBlank c = false) (h : blanks.next b t ≠ []) :
    t.GoesOnIn p := by
  rw [blanks_next hb hp] at h
  exact hb _ h

/-- Nothing is matched after blanks where the text goes on in another class. -/
theorem blanks_next_eq_nil (hb : Begins b p) (hp : ∀ c, p c = true → isBlank c = false)
    (hpq : ∀ c, p c = true → q c = false) (h : t.GoesOnIn q) : blanks.next b t = [] := by
  rw [blanks_next hb hp]
  exact hb.refuses hpq h

/-- What begins with no blank leads after blanks as it does by itself. -/
theorem leads_blanks_next {P : Text → Prop} (hb : Begins b p) (hp : ∀ c, p c = true → isBlank c = false)
    (hlead : Leads b P) : Leads (blanks.next b) P := leads_blanks.next hlead fun _ => hb.refuses hp

end Recogniser

end Footcite
