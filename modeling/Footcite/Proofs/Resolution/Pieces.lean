import Footcite.Proofs.Citation.Failures
import Footcite.Proofs.Walk

/-!
# What becomes of segments

The segments of a note become the pieces of its text one after another (`Segment.Become`): a mention its citation, with
the pieces of its parenthetical between parentheses where this holds tokens, and a use the numeral of the note that is
anchored under its name. Breakers and anchors leave no piece. So it is in every resolution that succeeds
(`Resolution.settled_become`).
-/

namespace Footcite

/-- **A citation of a mention**, in whatever form and words. -/
structure Draft.OfSite (library : Library) (x : Site) (d : Draft) : Prop where
  source : library.get? x.mention.source = some d.source
  pincite : Pincite.clean d.source.id x.mention.pincite = .ok d.pincite
  position : d.position = x.note.position
  number : d.number = x.note.number
  parenthetical : d.parenthetical = x.parenthetical

/-- **What becomes of the segments of a note**, with the numbers that names are bound to. -/
inductive Segment.Become (library : Library) (anchors : Anchors) (n : Note) : List Segment → List Piece → Prop
  | done : Become library anchors n [] []
  | text {t : Text} {rest : List Segment} {ps : List Piece} :
      Become library anchors n rest ps → Become library anchors n (.text t :: rest) (.text t :: ps)
  | mention {m : Mention} {d : Draft} {rest : List Segment} {ps : List Piece} :
      d.OfSite library ⟨n, m, m.parenthetical⟩ → Become library anchors n rest ps →
      Become library anchors n (.mention m [] :: rest) (.cite d :: ps)
  /-- A mention with tokens in its parenthetical. -/
  | nested {m : Mention} {inner rest : List Segment} {d : Draft} {qs ps : List Piece} :
      inner ≠ [] → d.OfSite library ⟨n, m, none⟩ → Become library anchors n inner qs →
      Become library anchors n rest ps →
      Become library anchors n (.mention m inner :: rest) (.cite d :: .text " (" :: (qs ++ .text ")" :: ps))
  | breaker {ordinal : Nat} {rest : List Segment} {ps : List Piece} :
      Become library anchors n rest ps → Become library anchors n (.breaker ordinal :: rest) ps
  | anchor {ref : Text} {rest : List Segment} {ps : List Piece} :
      Become library anchors n rest ps → Become library anchors n (.anchor ref :: rest) ps
  | use {ref : Text} {number : Int} {rest : List Segment} {ps : List Piece} :
      anchors.get? ref = some number → Become library anchors n rest ps →
      Become library anchors n (.use ref :: rest) (.text (Numeral.ofInt number) :: ps)

variable {library : Library} {anchors : Anchors} {n : Note}

/-! ## The first walk -/

theorem Cites.ofSite {l l' : Ledger} {k k' : Desk} {x : Site} {d : Draft} (h : Cites library l k x d l' k') :
    d.OfSite library x := ⟨h.source, h.pincite, h.position, h.number, h.parenthetical⟩

/-- A name that is looked up with success is bound to the number. -/
theorem Anchors.lookup_eq_ok {ref : Text} {note number : Int} :
    anchors.lookup ref note = .ok number ↔ anchors.get? ref = some number := by
  unfold lookup
  split <;> simp_all

/-- Steps are taken one part of them after another. -/
theorem Step.takeAll_append_eq (steps' : List Step) : ∀ (steps : List Step) (l : Ledger),
    Step.takeAll library anchors n l (steps ++ steps') = do
      let (ps, l₁) ← Step.takeAll library anchors n l steps
      let (qs, l₂) ← Step.takeAll library anchors n l₁ steps'
      pure (ps ++ qs, l₂)
  | [], l => by simp [Step.takeAll]
  | s :: steps, l => by
    simp only [List.cons_append, Step.takeAll, bind_assoc, pure_bind, Step.takeAll_append_eq steps' steps,
      List.append_assoc]

/-- Taking one step. -/
theorem Step.takeAll_singleton_eq (s : Step) (l : Ledger) :
    Step.takeAll library anchors n l [s] = s.take library anchors n l := by
  simp [Step.takeAll]

theorem Step.takeAll_append {steps steps' : List Step} {l l' : Ledger} {k k' : Desk} {ps : List Piece}
    (h : Gives (Step.takeAll library anchors n l (steps ++ steps')) k (ps, l') k') : ∃ qs qs' l₁ k₁, ps = qs ++ qs' ∧
      Gives (Step.takeAll library anchors n l steps) k (qs, l₁) k₁ ∧
      Gives (Step.takeAll library anchors n l₁ steps') k₁ (qs', l') k' := by
  rw [Step.takeAll_append_eq] at h
  simp only [gives_bind, gives_pure] at h
  obtain ⟨⟨qs, l₁⟩, k₁, hs, ⟨qs', l₂⟩, _, hr, he, rfl⟩ := h
  cases he
  exact ⟨qs, qs', l₁, k₁, rfl, hs, hr⟩

theorem Step.takeAll_singleton {s : Step} {l l' : Ledger} {k k' : Desk} {ps : List Piece}
    (h : Gives (Step.takeAll library anchors n l [s]) k (ps, l') k') :
    Gives (s.take library anchors n l) k (ps, l') k' := by
  rwa [Step.takeAll_singleton_eq] at h

namespace Segment

mutual

/-- The steps of a segment make its pieces. -/
theorem become_of_steps {before : List Segment} : ∀ (s : Segment) {l l' : Ledger} {k k' : Desk} {ps qs : List Piece}
    {rest : List Segment}, Gives (Step.takeAll library anchors n l (s.steps before)) k (ps, l') k' →
      Become library anchors n rest qs → Become library anchors n (s :: rest) (ps ++ qs)
  | .text t, _, _, _, _, _, _, _, h, hq => by
    have h := Step.takeAll_singleton h
    simp only [Step.take, gives_pure, Prod.mk.injEq] at h
    obtain ⟨⟨rfl, -⟩, -⟩ := h
    exact .text hq
  | .mention m [], _, _, _, _, _, _, _, h, hq => by
    have h := Step.takeAll_singleton h
    simp only [Step.take, gives_bind, gives_pure, Prod.mk.injEq] at h
    obtain ⟨⟨d, l₁⟩, _, hw, ⟨rfl, -⟩, -⟩ := h
    exact .mention (Draft.write_gives hw).ofSite hq
  | .mention m (s :: inner), _, _, _, _, _, _, _, h, hq => by
    -- The citation, the opening, the segments of the parenthetical, and its end.
    have hsteps : steps before (.mention m (s :: inner)) = [Step.cite m none before] ++ ([Step.text " ("] ++
        (allSteps [.text "("] (s :: inner) ++ [Step.text ")"])) := rfl
    rw [hsteps] at h
    obtain ⟨_, _, _, _, rfl, hcite, hrest⟩ := Step.takeAll_append h
    obtain ⟨_, _, _, _, rfl, hopen, hrest⟩ := Step.takeAll_append hrest
    obtain ⟨_, _, _, _, rfl, hi, hclose⟩ := Step.takeAll_append hrest
    have hcite := Step.takeAll_singleton hcite
    have hopen := Step.takeAll_singleton hopen
    have hclose := Step.takeAll_singleton hclose
    simp only [Step.take, gives_bind, gives_pure, Prod.mk.injEq] at hcite hopen hclose
    obtain ⟨⟨d, l₁⟩, _, hw, ⟨rfl, -⟩, -⟩ := hcite
    obtain ⟨⟨rfl, -⟩, -⟩ := hopen
    obtain ⟨⟨rfl, -⟩, -⟩ := hclose
    have hinner := become_of_allSteps (s :: inner) _ hi
    simpa using Become.nested (by simp) (Draft.write_gives hw).ofSite hinner hq
  | .breaker _, _, _, _, _, _, _, _, h, hq => by
    have h := Step.takeAll_singleton h
    simp only [Step.take, gives_pure, Prod.mk.injEq] at h
    obtain ⟨⟨rfl, -⟩, -⟩ := h
    exact .breaker hq
  | .anchor _, _, _, _, _, _, _, _, h, hq => by
    simp only [steps, Step.takeAll, gives_pure, Prod.mk.injEq] at h
    obtain ⟨⟨rfl, -⟩, -⟩ := h
    exact .anchor hq
  | .use ref, _, _, _, _, _, _, _, h, hq => by
    have h := Step.takeAll_singleton h
    simp only [Step.take, gives_bind, gives_pure, gives_liftM, Prod.mk.injEq] at h
    obtain ⟨number, _, ⟨hn, rfl⟩, numeral, _, ⟨hw, rfl⟩, ⟨rfl, -⟩, -⟩ := h
    obtain ⟨-, rfl⟩ := Numeral.write_eq_ok.mp hw
    exact .use (Anchors.lookup_eq_ok.mp hn) hq

/-- The steps of segments make their pieces. -/
theorem become_of_allSteps : ∀ (segments before : List Segment) {l l' : Ledger} {k k' : Desk} {ps : List Piece},
    Gives (Step.takeAll library anchors n l (allSteps before segments)) k (ps, l') k' →
      Become library anchors n segments ps
  | [], _, _, _, _, _, _, h => by
    simp only [allSteps, Step.takeAll, gives_pure, Prod.mk.injEq] at h
    obtain ⟨⟨rfl, -⟩, -⟩ := h
    exact .done
  | s :: rest, before, _, _, _, _, _, h => by
    rw [allSteps] at h
    obtain ⟨qs, qs', l₁, k₁, rfl, hs, hr⟩ := Step.takeAll_append h
    exact become_of_steps s hs (become_of_allSteps rest (s :: before) hr)

end

end Segment

/-! ## The second walk -/

/-- A settled citation is one of the same mention. -/
theorem Draft.Settles.ofSite {l : Ledger} {x : Site} {d e : Draft} (h : d.Settles l e) (hd : d.OfSite library x) :
    e.OfSite library x := by
  rw [h.same]
  exact ⟨hd.source, hd.pincite, hd.position, hd.number, hd.parenthetical⟩

/-- A piece before and after settling. -/
inductive Piece.Settles (l : Ledger) : Piece → Piece → Prop
  | text (t : Text) : Settles l (.text t) (.text t)
  | cite {d e : Draft} : d.Settles l e → Settles l (.cite d) (.cite e)

theorem Piece.settle_gives {l : Ledger} {p q : Piece} {k k' : Desk} (h : Gives (p.settle l) k q k') :
    p.Settles l q := by
  cases p with
  | text t =>
    rw [Piece.settle, gives_pure] at h
    obtain ⟨rfl, -⟩ := h
    exact .text t
  | cite d =>
    rw [Piece.settle, gives_map] at h
    obtain ⟨e, he, rfl⟩ := h
    exact .cite (Draft.settle_gives he).1

/-- The pieces of a note before and after settling. -/
theorem Piece.settleAll_settles {l : Ledger} {ps qs : List Piece} {k k' : Desk}
    (h : Gives (ps.mapM (Piece.settle l)) k qs k') : List.Forall₂ (Piece.Settles l) ps qs :=
  (Gives.mapM (P := fun _ => True) (Q := Piece.Settles l) (fun _ h => ⟨Piece.settle_gives h, trivial⟩) trivial h).1

/-- A list related to two in a row comes apart with them. -/
theorem exists_forall₂_append {α β : Type} {R : α → β → Prop} : ∀ {xs xs' : List α} {ys : List β},
    List.Forall₂ R (xs ++ xs') ys → ∃ zs zs', ys = zs ++ zs' ∧ List.Forall₂ R xs zs ∧ List.Forall₂ R xs' zs'
  | [], _, ys, h => ⟨[], ys, rfl, .nil, h⟩
  | _ :: _, _, _, h => by
    cases h with
    | cons hx h =>
      obtain ⟨zs, zs', rfl, hz, hz'⟩ := exists_forall₂_append h
      exact ⟨_ :: zs, zs', rfl, .cons hx hz, hz'⟩

/-- Settled pieces are pieces of the same segments. -/
theorem Segment.Become.settle {l : Ledger} {segments : List Segment} {ps : List Piece}
    (h : Become library anchors n segments ps) : ∀ {qs : List Piece}, List.Forall₂ (Piece.Settles l) ps qs →
      Become library anchors n segments qs := by
  induction h with
  | done =>
    intro qs hq
    cases hq
    exact .done
  | text _ ih =>
    intro qs hq
    cases hq with
    | cons hp hq =>
      cases hp
      exact .text (ih hq)
  | mention hd _ ih =>
    intro qs hq
    cases hq with
    | cons hp hq =>
      cases hp with
      | cite hs => exact .mention (hs.ofSite hd) (ih hq)
  | nested hi hd _ _ ihi ih =>
    intro qs hq
    cases hq with
    | cons hp hq =>
      cases hp with
      | cite hs =>
        cases hq with
        | cons hopen hq =>
          obtain ⟨inner, others, rfl, hinner, hothers⟩ := exists_forall₂_append hq
          cases hopen
          cases hothers with
          | cons hclose hothers =>
            cases hclose
            exact .nested hi (hs.ofSite hd) (ihi hinner) (ih hothers)
  | breaker _ ih => exact fun hq => .breaker (ih hq)
  | anchor _ ih => exact fun hq => .anchor (ih hq)
  | use hn _ ih =>
    intro qs hq
    cases hq with
    | cons hp hq =>
      cases hp
      exact .use hn (ih hq)

/-! ## Notes -/

/-- Each note has the pieces of its segments. -/
theorem Note.draftAll_become : ∀ {notes : List Note} {l l' : Ledger} {k k' : Desk} {pss : List (List Piece)},
    Gives (Note.draftAll library anchors l notes) k (pss, l') k' →
      List.Forall₂ (fun n ps => Segment.Become library anchors n n.segments ps) notes pss
  | [], _, _, _, _, _, h => by
    simp only [Note.draftAll, gives_pure, Prod.mk.injEq] at h
    obtain ⟨⟨rfl, -⟩, -⟩ := h
    exact .nil
  | n :: notes, _, _, _, _, _, h => by
    simp only [Note.draftAll, gives_bind, gives_pure, Prod.mk.injEq] at h
    obtain ⟨⟨pieces, l₁⟩, k₁, hs, ⟨more, l₂⟩, _, hr, ⟨rfl, -⟩, -⟩ := h
    exact .cons (Segment.become_of_allSteps n.segments [] hs) (Note.draftAll_become hr)

/-- Settled pieces note by note. -/
theorem Note.become_settled {l : Ledger} {notes : List Note} {pss : List (List Piece)}
    (h : List.Forall₂ (fun n ps => Segment.Become library anchors n n.segments ps) notes pss) :
    ∀ {qss : List (List Piece)}, List.Forall₂ (List.Forall₂ (Piece.Settles l)) pss qss →
      (List.zipWith SettledNote.mk notes qss).map (·.note) = notes ∧
        ∀ s ∈ List.zipWith SettledNote.mk notes qss,
          Segment.Become library anchors s.note s.note.segments s.pieces := by
  induction h with
  | nil =>
    intro qss hq
    cases hq
    simp
  | cons hn _ ih =>
    intro qss hq
    cases hq with
    | cons hp hq =>
      obtain ⟨hnotes, hpieces⟩ := ih hq
      simp only [List.zipWith_cons_cons, List.map_cons, List.forall_mem_cons]
      exact ⟨congrArg _ hnotes, hn.settle hp, hpieces⟩

/-- **What becomes of the notes of a resolution**: the anchors are bound, each note keeps its place, and its segments
become its pieces. -/
theorem Resolution.settled_become {notes : List Note} {k k' : Desk} {r : Resolution}
    (hr : Gives (ofNotes library notes) k r k') : Anchors.ofNotes notes = .ok r.crossrefs ∧
      r.settled.map (·.note) = notes ∧
        ∀ s ∈ r.settled, Segment.Become library r.crossrefs s.note s.note.segments s.pieces := by
  obtain ⟨pss, l, k₁, qss, k₂, ha, hd, hs, -, hsettled, -⟩ := ofNotes_stages hr
  have hsettle : List.Forall₂ (List.Forall₂ (Piece.Settles l)) pss qss :=
    (Gives.mapM (P := fun _ => True) (Q := List.Forall₂ (Piece.Settles l))
      (fun _ h => ⟨Piece.settleAll_settles h, trivial⟩) trivial hs).1
  rw [hsettled]
  exact ⟨ha, Note.become_settled (Note.draftAll_become hd) hsettle⟩

end Footcite
