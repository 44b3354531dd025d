import Footcite.Proofs.Numbering.Ledger
import Footcite.Proofs.Resolution.Crossrefs
import Footcite.Proofs.Resolution.Faults

/-!
# The first walk stops at the first fault

The first walk reads the segments of the notes in order (`Note.draftAll_reading`): if it ends well, all of them pass, and
if it ends with a failure that lies in a note, then this is the failure of the first segment at fault. That a mention
passes is settled before it is written, since a pincite that was found in a note and is not refused at first is not
refused later on either (`Note.found_of_read`).
-/

namespace Footcite

/-! ## Pincites of notes -/

/-- A mention that is read, at whatever depth, comes of a token. -/
theorem Segment.Reads.exists_token {opening : Bool} {ordinal n : Nat} {body : Text} {segments : List Segment}
    (h : Reads opening ordinal body segments n) : ∀ m ∈ allMentions segments,
      ∃ c rest r, Token.read c rest = .ok (.mention m.source m.pincite m.parenthetical, r) := by
  induction h with
  | done => simp [allMentions]
  | char _ _ ih => rwa [allMentions_consChar]
  | mention ht _ _ ih =>
    simp only [allMentions, mentions, List.cons_append, List.nil_append, List.forall_mem_cons]
    exact ⟨⟨_, _, _, ht⟩, ih⟩
  | nested ht _ _ _ ihi ih =>
    simp only [allMentions, mentions, List.cons_append, List.forall_mem_cons, List.forall_mem_append]
    exact ⟨⟨_, _, _, ht⟩, ihi, ih⟩
  | breaker _ _ ih => exact ih
  | reference _ _ ih =>
    intro m hm
    split at hm <;> exact ih m hm

/-- **The pincite of a mention is one that was found in its note.** -/
theorem Note.found_of_read {position number : Int} {body : Text} {n : Note} (h : read position number body = .ok n) :
    ∀ m ∈ n.mentions, Pincite.Found m.pincite := by
  obtain ⟨segments, next, hreads, hs⟩ := Note.exists_reads h
  have hfound : ∀ m ∈ Segment.allMentions segments, Pincite.Found m.pincite := by
    intro m hm
    obtain ⟨c, rest, r, htoken⟩ := hreads.exists_token m hm
    generalize m.parenthetical = parenthetical at htoken
    cases Token.heads_of_read htoken with
    | bare _ hscan => exact ⟨_, congrArg Prod.fst hscan⟩
    | parenthesised _ hscan => exact ⟨_, congrArg Prod.fst hscan⟩
  rcases hs with hs | hs
  · rwa [mentions, hs]
  · rw [mentions, hs, Segment.allMentions_markAll, List.forall_mem_map]
    exact hfound

variable {library : Library} {notes : List Note} {anchors : Anchors}

/-! ## Mentions and references -/

/-- A citation that fails in its note lacks a field. -/
theorem Source.lacking_of_cite_error {s : Source} {form : Form} {pincite pin parenthetical : Option Text}
    (hpin : Pincite.clean s.id pincite = .ok pin) {k : Desk} {e : Failure}
    (h : (outcome (s.cite form pincite parenthetical) k).1 = .error e) (he : e.ofNote = true) :
    ∃ f, s.firstLacking form = some f ∧ e = .missingField s.id f none := by
  have hdemands : Editing.Demands s (s.required form) (s.cite form pincite parenthetical) := s.cite_demands form hpin
  cases hlacking : s.firstLacking form with
  | some f =>
    rw [hdemands.lacking f hlacking k] at h
    cases h
    exact ⟨f, rfl, rfl⟩
  | none =>
    rw [hdemands.otherwise hlacking k e h] at he
    cases he

/-- A mention that is cited lacks no field that its form requires. -/
theorem Cites.complete {l l' : Ledger} {k k' : Desk} {x : Site} {d : Draft} (hc : Cites library l k x d l' k')
    (hfound : Pincite.Found x.mention.pincite) : d.source.firstLacking d.form = none := by
  obtain ⟨pin, hpin⟩ := Pincite.clean_of_clean hfound hc.pincite
  obtain ⟨k₁, htext, -⟩ := hc.written
  cases hlacking : d.source.firstLacking d.form with
  | none => rfl
  | some f =>
    have herror : (outcome (d.source.cite d.form d.pincite d.parenthetical) k).1 = _ :=
      (d.source.cite_demands d.form hpin).lacking f hlacking k
    rw [htext] at herror
    cases herror

/-- **Writing the citation of a mention reads the mention.** -/
theorem Draft.write_reading {n : Note} (l : Ledger) {m : Mention} (inner : List Segment)
    (hfound : Pincite.Found m.pincite) (parenthetical : Option Text) (before : List Segment) :
    Reading library notes l [(n, .mention m inner)] (Draft.write library n l m parenthetical before) := by
  refine .of_segment (fun k d l' k' h => ?_) fun k e h he => ?_
  · have hc := Draft.write_gives h
    obtain ⟨opens, l₁, hchoose, rfl⟩ := hc.chosen
    exact .mention hc.source hc.pincite hchoose (hc.complete hfound)
  · unfold Draft.write at h
    cases hs : library.get? m.source with
    | none =>
      rw [hs] at h
      cases h
      exact .unknownSource hs
    | some s =>
      rw [hs] at h
      rcases outcome_bind_error h with h | ⟨pincite, _, hcleaned, h⟩
      · obtain ⟨e', hclean, rfl⟩ := Editing.outcome_inNote_error h
        obtain ⟨p, hp, hat, rfl⟩ := Pincite.clean_error hclean
        exact .bareAt hs hp hat
      · obtain ⟨hclean, rfl⟩ := gives_liftM.mp (Editing.gives_inNote.mp hcleaned)
        rcases outcome_bind_error h with hchoose | ⟨⟨form, l₁⟩, _, hchosen, h⟩
        · obtain ⟨id, rfl, -⟩ := Ledger.choose_error hchoose
          cases he
        · obtain ⟨hchoose, rfl⟩ := gives_liftM.mp hchosen
          rcases outcome_bind_error h with h | ⟨text, _, _, h⟩
          · obtain ⟨e', htext, rfl⟩ := Editing.outcome_inNote_error h
            rw [Failure.ofNote_inNote] at he
            obtain ⟨pin, hpin⟩ := Pincite.clean_of_clean hfound hclean
            obtain ⟨f, hlacking, rfl⟩ := Source.lacking_of_cite_error hpin htext he
            exact .lacking hs hclean hchoose hlacking
          · cases h

/-! ## Steps -/

/-- Steps taken after others read what is read after them. -/
theorem Step.takeAll_append_reading {n : Note} {xs ys : List Step} {parts parts' : List (Note × Segment)} {l : Ledger}
    (hx : Reading library notes l parts (Step.takeAll library anchors n l xs))
    (hy : ∀ l, Reading library notes l parts' (Step.takeAll library anchors n l ys)) :
    Reading library notes l (parts ++ parts') (Step.takeAll library anchors n l (xs ++ ys)) := by
  rw [Step.takeAll_append_eq]
  exact hx.bind fun ps l₁ => (hy l₁).answer (ps ++ ·)

/-- A text between segments is none of them. -/
theorem Step.text_reading {n : Note} (t : Text) (l : Ledger) :
    Reading library notes l [] (Step.takeAll library anchors n l [.text t]) := by
  rw [Step.takeAll_singleton_eq]
  exact .pure _

theorem Step.cite_reading {n : Note} {m : Mention} (inner : List Segment) (hfound : Pincite.Found m.pincite)
    (parenthetical : Option Text) (before : List Segment) (l : Ledger) :
    Reading library notes l [(n, .mention m inner)]
      (Step.takeAll library anchors n l [.cite m parenthetical before]) := by
  rw [Step.takeAll_singleton_eq]
  exact (Draft.write_reading l inner hfound parenthetical before).answer fun d => [Piece.cite d]

/-- A reference is at fault when nothing is anchored under its name, and only then. -/
theorem Step.use_reading (hanchors : ∀ ref, anchors.get? ref = none ↔ ∀ n' ∈ notes, ¬n'.AnchoredAs ref) {n : Note}
    (ref : Text) (l : Ledger) :
    Reading library notes l [(n, .use ref)] (Step.takeAll library anchors n l [.use ref]) := by
  rw [Step.takeAll_singleton_eq]
  refine .of_segment (fun k ps l' k' h => ?_) fun k e h he => ?_
  · simp only [Step.take, gives_bind, gives_pure, gives_liftM] at h
    obtain ⟨number, _, ⟨hlookup, -⟩, _, _, -, hpieces, -⟩ := h
    cases hpieces
    have hbound : ¬∀ n' ∈ notes, ¬n'.AnchoredAs ref := by
      rw [← hanchors ref, Anchors.lookup_eq_ok.mp hlookup]
      simp
    simp only [not_forall, not_not] at hbound
    obtain ⟨n', hn', hanchored⟩ := hbound
    exact .use hn' hanchored
  · rcases outcome_bind_error h with h | ⟨number, _, -, h⟩
    · have hlookup : anchors.lookup ref n.number = .error e := h
      unfold Anchors.lookup at hlookup
      split at hlookup
      · cases hlookup
      · next hget =>
        cases hlookup
        exact .neverAnchored ((hanchors ref).mp hget)
    · rcases outcome_bind_error h with h | ⟨_, _, -, h⟩
      · obtain ⟨rfl, -⟩ := Numeral.write_error h
        cases he
      · cases h

mutual

/-- The steps of a segment read the segment and those of its parenthetical. -/
theorem Segment.steps_reading (hanchors : ∀ ref, anchors.get? ref = none ↔ ∀ n' ∈ notes, ¬n'.AnchoredAs ref)
    {n : Note} : ∀ (s : Segment) (before : List Segment) (l : Ledger),
      (∀ m ∈ s.mentions, Pincite.Found m.pincite) →
        Reading library notes l (s.parts.map (n, ·)) (Step.takeAll library anchors n l (s.steps before))
  | .text t, _, l, _ => by
    rw [Segment.steps, Step.takeAll_singleton_eq]
    exact .of_passes _ (.text t)
  | .mention m [], before, l, hfound => Step.cite_reading [] (hfound m List.mem_cons_self) m.parenthetical before l
  | .mention m (s :: inner), before, l, hfound => by
    have hinner := Segment.allSteps_reading hanchors (n := n) (s :: inner) [.text "("]
    have hclosed (l : Ledger) : Reading library notes l ((allParts (s :: inner)).map (n, ·))
        (Step.takeAll library anchors n l (.text " (" :: (allSteps [.text "("] (s :: inner) ++ [.text ")"]))) := by
      have h := Step.takeAll_append_reading (Step.text_reading " (" l) fun l => Step.takeAll_append_reading
        (hinner l fun m' hm => hfound m' (List.mem_cons_of_mem _ hm)) (Step.text_reading ")")
      rwa [List.append_nil, List.nil_append] at h
    exact Step.takeAll_append_reading
      (Step.cite_reading (s :: inner) (hfound m List.mem_cons_self) none before l) hclosed
  | .breaker ordinal, _, l, _ => by
    rw [Segment.steps, Step.takeAll_singleton_eq]
    exact .of_passes _ (.breaker ordinal)
  | .anchor ref, _, _, _ => .of_passes [] (.anchor ref)
  | .use ref, _, l, _ => Step.use_reading hanchors ref l

/-- The steps of several segments read them one after another. -/
theorem Segment.allSteps_reading (hanchors : ∀ ref, anchors.get? ref = none ↔ ∀ n' ∈ notes, ¬n'.AnchoredAs ref)
    {n : Note} : ∀ (segments before : List Segment) (l : Ledger),
      (∀ m ∈ Segment.allMentions segments, Pincite.Found m.pincite) →
        Reading library notes l ((allParts segments).map (n, ·))
          (Step.takeAll library anchors n l (Segment.allSteps before segments))
  | [], _, l, _ => .pure []
  | s :: rest, before, l, hfound => by
    rw [allParts_cons, List.map_append, Segment.allSteps]
    exact Step.takeAll_append_reading
      (Segment.steps_reading hanchors s before l fun m hm => hfound m (List.mem_append_left _ hm))
      fun l => Segment.allSteps_reading hanchors rest (s :: before) l fun m hm =>
        hfound m (List.mem_append_right _ hm)

end

/-! ## Notes -/

/-- **The first walk reads the segments of the notes in order.** -/
theorem Note.draftAll_reading (hanchors : ∀ ref, anchors.get? ref = none ↔ ∀ n' ∈ notes, ¬n'.AnchoredAs ref) :
    ∀ (ns : List Note) (l : Ledger),
      (∀ n ∈ ns, ∀ m ∈ n.mentions, Pincite.Found m.pincite) →
        Reading library notes l (ns.flatMap Note.parts) (Note.draftAll library anchors l ns)
  | [], _, _ => .pure []
  | n :: ns, l, hfound => by
    obtain ⟨hn, hns⟩ := List.forall_mem_cons.mp hfound
    exact (Segment.allSteps_reading hanchors n.segments [] l hn).bind fun ps l₁ =>
      (Note.draftAll_reading hanchors ns l₁ hns).answer (ps :: ·)

end Footcite
