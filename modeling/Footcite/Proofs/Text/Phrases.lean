import Footcite.Proofs.Text.Recogniser

/-!
# The phrases of a recogniser

A recogniser is told by the texts that it takes, each together with what comes after it: it accepts the phrases of a
kind when it takes all of them and nothing else (`Recogniser.Accepts`). There is one lemma for each way in which
recognisers make up recognisers, so that a grammar is read off a recogniser part by part.
-/

namespace Footcite

/-- Written with these letters, in whatever case. -/
def Text.Spells (letters t : Text) : Prop := List.Forall₂ (fun l c => sameLetter l c = true) letters t

/-- A word that is put together of two. -/
theorem Text.spells_append {w w' u : Text} :
    Spells (w ++ w') u ↔ ∃ x y, u = x ++ y ∧ Spells w x ∧ Spells w' y := by
  induction w generalizing u with
  | nil =>
    constructor
    · exact fun h => ⟨[], u, rfl, .nil, h⟩
    · rintro ⟨_, y, rfl, ⟨⟩, h⟩
      exact h
  | cons l ls ih =>
    constructor
    · rintro (_ | ⟨hc, hu⟩)
      obtain ⟨x, y, rfl, hx, hy⟩ := ih.mp hu
      exact ⟨_ :: x, y, rfl, .cons hc hx, hy⟩
    · rintro ⟨_, y, rfl, _ | ⟨hc, hx⟩, hy⟩
      exact .cons hc (ih.mpr ⟨_, y, rfl, hx, hy⟩)

/-- A kind of text, told by the text and by what comes after it. -/
abbrev Phrase := Text → Text → Prop

/-- Any number of phrases of a kind one after another. -/
inductive Phrase.Repeated (L : Phrase) : Phrase
  | none (v : Text) : Repeated L [] v
  | more {u w v : Text} : L u (w ++ v) → Repeated L w v → Repeated L (u ++ w) v

namespace Recogniser

variable {a b : Recogniser} {L M : Phrase}

/-- **The phrases of a recogniser**: it takes all of this kind, and nothing else. -/
def Accepts (a : Recogniser) (L : Phrase) : Prop := ∀ t r, r ∈ a t ↔ ∃ u, t = u ++ r ∧ L u r

namespace Accepts

theorem congr (ha : Accepts a L) (h : ∀ u v, L u v ↔ M u v) : Accepts a M := fun t r =>
  (ha t r).trans (exists_congr fun u => and_congr_right fun _ => h u r)

/-- What is left after a phrase. -/
theorem mem (ha : Accepts a L) {u v : Text} : v ∈ a (u ++ v) ↔ L u v := by
  rw [ha]
  constructor
  · rintro ⟨u', hu, hL⟩
    rwa [List.append_cancel_right hu]
  · exact fun hL => ⟨u, rfl, hL⟩

theorem one {p : Char → Bool} : Accepts (one p) fun u _ => ∃ c, u = [c] ∧ p c = true := by
  intro t r
  cases t with
  | nil => simp [Recogniser.one]
  | cons c rest =>
    constructor
    · intro hr
      simp only [Recogniser.one] at hr
      split at hr
      · next hc =>
        rw [List.mem_singleton] at hr
        exact ⟨[c], by rw [hr]; rfl, c, rfl, hc⟩
      · cases hr
    · rintro ⟨_, ht, d, rfl, hd⟩
      obtain ⟨rfl, rfl⟩ := List.cons.inj ht
      simp [Recogniser.one, hd]

theorem word : ∀ letters : Text, Accepts (word letters) fun u _ => Text.Spells letters u
  | [] => fun t r => by
    constructor
    · intro hr
      exact ⟨[], (List.mem_singleton.mp hr).symm, .nil⟩
    · rintro ⟨_, rfl, ⟨⟩⟩
      exact List.mem_singleton_self r
  | l :: ls => fun t r => by
    cases t with
    | nil =>
      simp only [Recogniser.word, List.not_mem_nil, false_iff]
      rintro ⟨u, hu, _ | _⟩
      cases hu
    | cons c rest =>
      simp only [Recogniser.word]
      constructor
      · intro hr
        split at hr
        · next hc =>
          obtain ⟨u, rfl, hu⟩ := (word ls rest r).mp hr
          exact ⟨c :: u, rfl, .cons hc hu⟩
        · cases hr
      · rintro ⟨_, ht, _ | ⟨hc, hu⟩⟩
        obtain ⟨rfl, rfl⟩ := List.cons.inj ht
        rw [if_pos hc]
        exact (word ls _ r).mpr ⟨_, rfl, hu⟩

theorem ahead {p : Text → Bool} : Accepts (ahead p) fun u v => u = [] ∧ p v = true := by
  intro t r
  by_cases hp : p t = true
  · simp only [Recogniser.ahead, if_pos hp, List.mem_singleton]
    constructor
    · rintro rfl
      exact ⟨[], rfl, rfl, hp⟩
    · rintro ⟨_, rfl, rfl, -⟩
      rfl
  · simp only [Recogniser.ahead, if_neg hp, List.not_mem_nil, false_iff]
    rintro ⟨_, rfl, rfl, hr⟩
    exact hp hr

theorem next (ha : Accepts a L) (hb : Accepts b M) :
    Accepts (a.next b) fun w v => ∃ x y, w = x ++ y ∧ L x (y ++ v) ∧ M y v := by
  intro t r
  rw [Recogniser.next, List.mem_flatMap]
  constructor
  · rintro ⟨s, hs, hr⟩
    obtain ⟨x, rfl, hx⟩ := (ha t s).mp hs
    obtain ⟨y, rfl, hy⟩ := (hb s r).mp hr
    exact ⟨x ++ y, by rw [List.append_assoc], x, y, rfl, hx, hy⟩
  · rintro ⟨_, rfl, x, y, rfl, hx, hy⟩
    rw [List.append_assoc]
    exact ⟨y ++ r, ha.mem.mpr hx, hb.mem.mpr hy⟩

theorem or (ha : Accepts a L) (hb : Accepts b M) : Accepts (a.or b) fun u v => L u v ∨ M u v := by
  intro t r
  rw [Recogniser.or, List.mem_append, ha, hb]
  simp only [and_or_left, exists_or]

theorem nothing : Accepts (fun t => [t]) fun u _ => u = [] := by
  intro t r
  simp [eq_comm]

theorem optional (ha : Accepts a L) : Accepts a.optional fun u v => L u v ∨ u = [] := ha.or nothing

theorem firstOf_nil : Accepts (firstOf []) fun _ _ => False := by
  intro t r
  simp [Recogniser.firstOf]

theorem firstOf_cons {others : List Recogniser} (ha : Accepts a L) (h : Accepts (firstOf others) M) :
    Accepts (firstOf (a :: others)) fun u v => L u v ∨ M u v := ha.or h

theorem many (ha : Accepts a L) (hs : Shrinks a) : Accepts a.many (Phrase.Repeated L) := by
  have hupTo : ∀ n t r, t.length ≤ n → (r ∈ upTo a n t ↔ ∃ u, t = u ++ r ∧ Phrase.Repeated L u r) := by
    intro n
    induction n with
    | zero =>
      intro t r ht
      obtain rfl : t = [] := List.length_eq_zero_iff.mp (Nat.le_zero.mp ht)
      simp only [upTo, List.mem_singleton]
      constructor
      · rintro rfl
        exact ⟨[], rfl, .none []⟩
      · rintro ⟨u, hu, -⟩
        exact (List.append_eq_nil_iff.mp hu.symm).2
    | succ n ih =>
      intro t r ht
      simp only [upTo, Recogniser.optional, Recogniser.or, Recogniser.next, List.mem_append, List.mem_flatMap,
        List.mem_singleton]
      constructor
      · rintro (⟨s, hs', hr⟩ | rfl)
        · have := hs t s hs'
          obtain ⟨x, rfl, hx⟩ := (ha t s).mp hs'
          obtain ⟨y, rfl, hy⟩ := (ih s r (by omega)).mp hr
          exact ⟨x ++ y, by rw [List.append_assoc], .more hx hy⟩
        · exact ⟨[], rfl, .none r⟩
      · rintro ⟨_, rfl, hu⟩
        cases hu with
        | none => exact .inr rfl
        | @more x y _ hx hy =>
          rw [List.append_assoc] at ht ⊢
          have hmem : y ++ r ∈ a (x ++ (y ++ r)) := ha.mem.mpr hx
          have := hs _ _ hmem
          exact .inl ⟨y ++ r, hmem, (ih _ r (by omega)).mpr ⟨y, rfl, hy⟩⟩
  exact fun t r => hupTo t.length t r (Nat.le_refl _)

theorem many_one {p : Char → Bool} : Accepts (Recogniser.many (Recogniser.one p)) fun u _ => u.all p = true := by
  refine (one.many Shrinks.one).congr fun u v => ⟨fun h => ?_, fun h => ?_⟩
  · induction h with
    | none => rfl
    | more hu _ ih =>
      obtain ⟨c, rfl, hc⟩ := hu
      rw [List.all_append, ih, Bool.and_true]
      simpa using hc
  · induction u with
    | nil => exact .none v
    | cons c u ih =>
      rw [List.all_cons, Bool.and_eq_true] at h
      exact .more (u := [c]) ⟨c, rfl, h.1⟩ (ih h.2)

theorem many1_one {p : Char → Bool} :
    Accepts (many1 (Recogniser.one p)) fun u _ => u ≠ [] ∧ u.all p = true := by
  refine (one.next many_one).congr fun u v => ⟨?_, ?_⟩
  · rintro ⟨_, y, rfl, ⟨c, rfl, hc⟩, hy⟩
    exact ⟨by simp, by simp [hc, hy]⟩
  · rintro ⟨hne, hall⟩
    cases u with
    | nil => exact absurd rfl hne
    | cons c u =>
      rw [List.all_cons, Bool.and_eq_true] at hall
      exact ⟨[c], u, rfl, ⟨c, rfl, hall.1⟩, hall.2⟩

theorem blanks : Accepts blanks fun u _ => u.blank = true := many_one

theorem gap : Accepts gap fun u _ => u ≠ [] ∧ u.blank = true := many1_one

end Accepts

/-- The phrases of a recogniser that keeps inside brackets hold none. -/
theorem Inside.unbracketed (hi : Inside a) (ha : Accepts a L) {u v : Text} (h : L u v) :
    ∀ c ∈ u, isBracket c = false := by
  obtain ⟨u', heq, hu'⟩ := hi.takes _ v (ha.mem.mpr h)
  rwa [List.append_cancel_right heq]

end Recogniser

end Footcite
