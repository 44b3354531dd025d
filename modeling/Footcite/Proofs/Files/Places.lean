import Footcite.Files.Path

/-!
# Places and their names

However a path is spelled, it leads to one place, and a place has one name. Its double dots may be taken out first
(`Path.place_canonical`), for what is entered and left again is where one was before (`Place.above_enter`). And two
places with one name are the same (`Place.name_injective`), because the parts of a path hold no slash (`Path.plain`).
-/

namespace Footcite

/-- A part of a path: not empty, and without a slash. -/
def Text.IsPart (t : Text) : Prop := t ≠ [] ∧ '/' ∉ t

/-! ## Pieces between slashes -/

namespace Path

theorem pieces_ne_nil (t : Text) : pieces t ≠ [] := by
  cases t with
  | nil => simp [pieces]
  | cons c rest =>
    unfold pieces
    split
    · simp
    · split <;> simp

/-- A text up to a slash is a piece. -/
theorem pieces_append_slash {p : Text} (h : '/' ∉ p) (rest : Text) : pieces (p ++ '/' :: rest) = p :: pieces rest := by
  induction p with
  | nil => simp [pieces]
  | cons c p ih =>
    obtain ⟨hc, hp⟩ := List.ne_and_not_mem_of_not_mem_cons h
    simp [pieces, Ne.symm hc, ih hp]

/-- A text without a slash is one piece. -/
theorem pieces_of_free {p : Text} (h : '/' ∉ p) : pieces p = [p] := by
  induction p with
  | nil => rfl
  | cons c p ih =>
    obtain ⟨hc, hp⟩ := List.ne_and_not_mem_of_not_mem_cons h
    simp [pieces, Ne.symm hc, ih hp]

/-- No piece holds a slash. -/
theorem free_of_mem_pieces : ∀ {t p : Text}, p ∈ pieces t → '/' ∉ p
  | [], p, h => by
    rw [pieces, List.mem_singleton] at h
    simp [h]
  | c :: t, p, h => by
    unfold pieces at h
    split at h
    · rcases List.mem_cons.mp h with rfl | h
      · exact List.not_mem_nil
      · exact free_of_mem_pieces h
    · next hc =>
      cases hp : pieces t with
      | nil => exact absurd hp (pieces_ne_nil t)
      | cons q ps =>
        rw [hp] at h
        rcases List.mem_cons.mp h with rfl | h
        · have hq : '/' ∉ q := free_of_mem_pieces (hp ▸ List.mem_cons_self)
          exact List.not_mem_cons_of_ne_of_not_mem (Ne.symm hc) hq
        · exact free_of_mem_pieces (hp ▸ List.mem_cons_of_mem _ h)

/-- The pieces of parts with slashes between them are the parts. -/
theorem pieces_join : ∀ {ps : List Text}, ps ≠ [] → (∀ p ∈ ps, p.IsPart) → pieces (Text.join ['/'] ps) = ps
  | [], h, _ => absurd rfl h
  | [p], _, h => pieces_of_free (h p List.mem_cons_self).2
  | p :: q :: ps, _, h => by
    obtain ⟨hp, hps⟩ := List.forall_mem_cons.mp h
    rw [Text.join, List.append_assoc, List.singleton_append, pieces_append_slash hp.2,
      pieces_join (List.cons_ne_nil q ps) hps]

/-- Parts are told by what is written of them. -/
theorem join_injective {ps qs : List Text} (hp : ∀ p ∈ ps, p.IsPart) (hq : ∀ q ∈ qs, q.IsPart)
    (h : Text.join ['/'] ps = Text.join ['/'] qs) : ps = qs := by
  -- Where nothing is written there are no parts, for an empty piece is none.
  have hwritten {ps : List Text} (hp : ∀ p ∈ ps, p.IsPart) (hne : ps ≠ []) : Text.join ['/'] ps ≠ [] := by
    intro he
    have hpieces := pieces_join hne hp
    rw [he] at hpieces
    exact (hp [] (hpieces ▸ List.mem_cons_self)).1 rfl
  by_cases hps : ps = [] <;> by_cases hqs : qs = []
  · rw [hps, hqs]
  · exact absurd (h.symm.trans (by rw [hps]; rfl)) (hwritten hq hqs)
  · exact absurd (h.trans (by rw [hqs]; rfl)) (hwritten hp hps)
  · rw [← pieces_join hps hp, h, pieces_join hqs hq]

/-- The parts of a path are parts, and so are those of its working directory. -/
structure Plain (p : Path) : Prop where
  parts : ∀ part ∈ p.parts, part.IsPart
  home : ∀ held, p.home = some held → ∀ part ∈ held, part.IsPart

theorem isPart_of_mem_partsOf {t part : Text} (h : part ∈ partsOf t) : part.IsPart := by
  obtain ⟨hmem, hne⟩ := List.mem_filter.mp h
  refine ⟨?_, free_of_mem_pieces hmem⟩
  rintro rfl
  simp at hne

/-- A path that is read is plain, whatever its working directory. -/
theorem plain (t : Text) (home : Option Text) : ((ofText t).within home).Plain := by
  refine ⟨fun part h => isPart_of_mem_partsOf h, fun held hheld part h => ?_⟩
  obtain ⟨u, -, rfl⟩ := Option.map_eq_some_iff.mp hheld
  exact isPart_of_mem_partsOf (List.mem_reverse.mp h)

end Path

/-! ## Places -/

namespace Place

variable {home : Option (List Text)} {w : Place} {part : Text}

/-- A place in its own form stays in it. -/
theorem settled_settled (home : Option (List Text)) (w : Place) : (w.settled home).settled home = w.settled home := by
  by_cases h : w.rooted = true ∧ home = some w.held
  · simp [settled, h]
  · simp [settled, h]

/-- A place that is named from the working directory on is in its own form. -/
theorem settled_of_not_rooted (h : w.rooted = false) : w.settled home = w := by
  unfold settled
  rw [if_neg (by simp [h])]

/-- What comes of a step is in its own form. -/
theorem settled_step (home : Option (List Text)) (w : Place) (part : Text) :
    (w.step home part).settled home = w.step home part := by
  unfold step
  split
  · unfold above
    split
    · exact settled_settled _ _
    · split
      · exact settled_settled _ _
      · exact settled_of_not_rooted rfl
    · split <;> exact settled_of_not_rooted rfl
  · exact settled_settled _ _

/-- **What is entered and left again** is where one was before. -/
theorem above_enter (hw : w.settled home = w) (hpart : part ≠ Path.up) : (w.enter home part).above home = w := by
  obtain ⟨rooted, held⟩ := w
  cases rooted with
  | false => simp [enter, settled, above, hpart]
  | true =>
    by_cases hhome : home = some (part :: held)
    · -- The working directory is entered, and then left for the directory that it is in.
      subst hhome
      simp [enter, settled, above]
    · simpa [enter, settled, above, hhome] using hw

/-! ## Names -/

/-- The parts of the name of a place are parts. -/
def Plain (w : Place) : Prop := ∀ part ∈ w.held, part.IsPart

theorem Plain.settled (h : w.Plain) : (w.settled home).Plain := by
  unfold Place.settled
  split
  · exact fun _ h => absurd h List.not_mem_nil
  · exact h

theorem isPart_up : Path.up.IsPart := ⟨by decide, by decide⟩

theorem Plain.step (h : w.Plain) (hhome : ∀ held, home = some held → ∀ part ∈ held, part.IsPart)
    (hpart : part.IsPart) : (w.step home part).Plain := by
  have htail {held : List Text} (h : ∀ part ∈ held, part.IsPart) : Plain ⟨true, held.tail⟩ :=
    fun part hmem => h part (List.mem_of_mem_tail hmem)
  unfold Place.step
  split
  · unfold above
    split
    · exact (htail h).settled
    · split
      · next held hheld => exact (htail (hhome _ rfl)).settled
      · exact List.forall_mem_singleton.mpr isPart_up
    · split
      · exact List.forall_mem_cons.mpr ⟨isPart_up, h⟩
      · exact fun part hmem => h part (List.mem_cons_of_mem _ hmem)
  · exact Plain.settled (List.forall_mem_cons.mpr ⟨hpart, h⟩)

/-- **Places with one name are the same.** -/
theorem name_injective {v : Place} (hv : v.Plain) (hw : w.Plain) (h : v.name = w.name) : v = w := by
  obtain ⟨r, held⟩ := v
  obtain ⟨r', held'⟩ := w
  have hparts : ∀ part ∈ held.reverse, part.IsPart := fun part hmem => hv part (List.mem_reverse.mp hmem)
  have hparts' : ∀ part ∈ held'.reverse, part.IsPart := fun part hmem => hw part (List.mem_reverse.mp hmem)
  -- A name from the working directory on does not begin with a slash.
  have hslash {ps : List Text} (hps : ∀ p ∈ ps, p.IsPart) (t : Text) : Text.join ['/'] ps ≠ '/' :: t := by
    intro he
    cases ps with
    | nil => cases he
    | cons p ps =>
      obtain ⟨hne, hfree⟩ := hps p List.mem_cons_self
      obtain ⟨c, p, rfl⟩ := List.exists_cons_of_ne_nil hne
      have hc : c = '/' := by cases ps <;> simp [Text.join] at he <;> exact he.1
      exact hfree (hc ▸ List.mem_cons_self)
  have hheld (he : Text.join ['/'] held.reverse = Text.join ['/'] held'.reverse) : held = held' :=
    List.reverse_inj.mp (Path.join_injective hparts hparts' he)
  cases r <;> cases r' <;>
    simp only [name, if_true, List.nil_append, List.cons_append, Bool.false_eq_true, if_false] at h
  · rw [hheld h]
  · exact absurd h (hslash hparts _)
  · exact absurd h.symm (hslash hparts' _)
  · rw [hheld (List.cons_inj_right _ |>.mp h)]

end Place

/-! ## Where a path leads -/

namespace Path

theorem settled_start (p : Path) : p.start.settled p.home = p.start := by
  unfold start
  split
  · exact Place.settled_of_not_rooted rfl
  · exact Place.settled_settled _ _

/-- Nothing is above the root. -/
theorem above_start {p : Path} (h : p.root.isEmpty = false) : p.start.above p.home = p.start := by
  unfold start Place.settled
  rw [h]
  by_cases hhome : p.home = some []
  · simp [hhome, Place.above, Place.settled]
  · simp [hhome, Place.above, Place.settled]

/-- The place that a plain path leads to has a name of parts. -/
theorem Plain.place {p : Path} (h : p.Plain) : p.place.Plain := by
  have hstart : p.start.Plain := by
    unfold start
    split
    · exact fun _ h => absurd h List.not_mem_nil
    · exact Place.Plain.settled fun _ h => absurd h List.not_mem_nil
  have hfollow : ∀ {parts : List Text} {w : Place}, (∀ part ∈ parts, part.IsPart) → w.Plain →
      (parts.foldl (Place.step p.home) w).Plain := by
    intro parts
    induction parts with
    | nil => exact fun _ hw => hw
    | cons part parts ih =>
      intro w hparts hw
      obtain ⟨hpart, hparts⟩ := List.forall_mem_cons.mp hparts
      exact ih hparts (hw.step h.home hpart)
  exact hfollow h.parts hstart

/-- The place that parts lead to which are held last first. -/
def reached (p : Path) (held : List Text) : Place := held.foldr (fun part w => w.step p.home part) p.start

theorem settled_reached (p : Path) : ∀ held : List Text, (p.reached held).settled p.home = p.reached held
  | [] => p.settled_start
  | _ :: _ => Place.settled_step _ _ _

/-- Holding a part more is following it. -/
theorem reached_climb (p : Path) (held : List Text) (part : Text) :
    p.reached (climb p.root held part) = (p.reached held).step p.home part := by
  unfold climb
  split
  · next hup =>
    subst hup
    cases held with
    | nil =>
      simp only
      split
      · rfl
      · next hroot => exact (above_start (by simpa using hroot)).symm
    | cons q held =>
      simp only
      split
      · rfl
      · next hq =>
        have hstep : p.reached (q :: held) = (p.reached held).enter p.home q := if_neg hq
        rw [hstep]
        exact (Place.above_enter (p.settled_reached held) hq).symm
  · rfl

/-- **Taking out double dots** leaves the place that a path leads to. -/
theorem place_canonical (p : Path) : p.canonical.place = p.place := by
  have hclimb (parts held : List Text) :
      p.reached (parts.foldl (climb p.root) held) = parts.foldl (Place.step p.home) (p.reached held) := by
    induction parts generalizing held with
    | nil => rfl
    | cons part parts ih => rw [List.foldl_cons, ih, reached_climb, List.foldl_cons]
  have hstart : p.canonical.start = p.start := by
    unfold start canonical
    cases h : p.root.isEmpty <;> rfl
  calc p.canonical.place = p.reached (p.parts.foldl (climb p.root) []) := by
        rw [place, hstart, reached, ← List.foldl_reverse]
        rfl
    _ = p.place := hclimb p.parts []

end Path

end Footcite
