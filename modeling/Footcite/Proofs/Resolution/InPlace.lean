import Footcite.Proofs.Resolution.Citation
import Footcite.Proofs.Resolution.Brackets

/-!
# Citations in their places

The citations of a resolution are those of the mentions of its notes, one for each and in their order. Put back in for
the mentions they make up the texts of the notes (`Note.weaveAll`): what stands between them is the text of the notes,
the numbers of the notes referred to, and parentheses around what a parenthetical with tokens becomes. Nothing is taken
away but a full stop that comes right after a citation which ends in one, and blanks around a note (`Piece.joined`).
-/

namespace Footcite

/-! ## Putting citations in -/

mutual

/-- The pieces of a segment, with the next citations put in for its mentions, and the citations that are left over. -/
def Segment.weave (anchors : Anchors) : Segment → List Draft → List Piece × List Draft
  | .text t, ds => ([.text t], ds)
  | .mention _ inner, d :: ds =>
    let (pieces, ds) := Segment.weaveAll anchors inner ds
    (.cite d :: if inner.isEmpty then [] else .text " (" :: (pieces ++ [.text ")"]), ds)
  | .mention _ _, [] => ([], [])
  | .breaker _, ds | .anchor _, ds => ([], ds)
  | .use ref, ds => (((anchors.get? ref).map fun number => .text (Numeral.ofInt number)).toList, ds)

/-- The pieces of several segments, and the citations that are left over. -/
def Segment.weaveAll (anchors : Anchors) : List Segment → List Draft → List Piece × List Draft
  | [], ds => ([], ds)
  | s :: rest, ds =>
    let (pieces, ds) := s.weave anchors ds
    let (more, ds) := Segment.weaveAll anchors rest ds
    (pieces ++ more, ds)

end

/-- The pieces of each note, with citations put in for the mentions of all notes in their order. -/
def Note.weaveAll (anchors : Anchors) : List Note → List Draft → List (List Piece)
  | [], _ => []
  | n :: rest, ds =>
    let (pieces, ds) := Segment.weaveAll anchors n.segments ds
    pieces :: weaveAll anchors rest ds

namespace Piece

/-- **The words of a piece as they are shown after another**: a text loses the full stop that it begins with if a
citation which ends in one comes right before. -/
def shown : (previous : Option Piece) → Piece → Text
  | some (.cite d), .text ('.' :: t) => if endsInStop d.text then t else '.' :: t
  | _, p => p.words

/-- The shown words of pieces, without the blanks around them. -/
def joined (ps : List Piece) : Text := Text.trim (List.zipWith shown (none :: ps.map some) ps).flatten

/-- After such a piece a text loses its full stop. -/
def stops : Option Piece → Bool
  | some (.cite d) => endsInStop d.text
  | some (.text _) | none => false

theorem shown_stop (t : Text) : ∀ previous : Option Piece,
    shown previous (.text ('.' :: t)) = if stops previous then t else '.' :: t
  | none | some (.text _) | some (.cite _) => rfl

theorem shown_words {p : Piece} (hp : ∀ t, p ≠ .text ('.' :: t)) (previous : Option Piece) :
    shown previous p = p.words := by
  unfold shown
  split
  · exact absurd rfl (hp _)
  · rfl

/-- Pieces are put together as they are shown, whatever comes before the first. -/
theorem joinAfter_eq (previous : Option Piece) (ps : List Piece) :
    joinAfter (stops previous) ps = (List.zipWith shown (previous :: ps.map some) ps).flatten := by
  generalize hs : stops previous = stop
  fun_induction joinAfter stop ps generalizing previous with
  | case1 => rfl
  | case2 stop t rest ih =>
    rw [List.map_cons, List.zipWith_cons_cons, List.flatten_cons, shown_stop, hs, ← ih _ rfl]
  | case3 stop t rest ht ih =>
    rw [List.map_cons, List.zipWith_cons_cons, List.flatten_cons, ← ih _ rfl, shown_words]
    · rfl
    · rintro u he
      cases he
      exact ht u rfl
  | case4 stop d rest ih =>
    rw [List.map_cons, List.zipWith_cons_cons, List.flatten_cons, ← ih _ rfl, shown_words (by simp)]
    rfl

/-- **The text of a note is what its pieces show.** -/
theorem join_eq (ps : List Piece) : join ps = joined ps :=
  congrArg Text.trim (joinAfter_eq none ps)

end Piece

/-! ## Pieces and their citations -/

variable {library : Library} {anchors : Anchors} {n : Note} {segments : List Segment} {ps : List Piece}

namespace Piece

/-- The citations among pieces. -/
def drafts (ps : List Piece) : List Draft := ps.filterMap draft?

@[simp] theorem drafts_nil : drafts [] = [] := rfl

@[simp] theorem drafts_text (t : Text) (ps : List Piece) : drafts (.text t :: ps) = drafts ps := rfl

@[simp] theorem drafts_cite (d : Draft) (ps : List Piece) : drafts (.cite d :: ps) = d :: drafts ps := rfl

@[simp] theorem drafts_append (ps qs : List Piece) : drafts (ps ++ qs) = drafts ps ++ drafts qs :=
  List.filterMap_append

end Piece

namespace Segment.Become

/-- The pieces that segments become are those with their citations put in. -/
theorem weave (h : Become library anchors n segments ps) (ds : List Draft) :
    weaveAll anchors segments (Piece.drafts ps ++ ds) = (ps, ds) := by
  induction h generalizing ds with
  | done => rfl
  | text _ ih => simp only [weaveAll, Segment.weave, Piece.drafts_text, ih, List.singleton_append]
  | mention _ _ ih => simp [weaveAll, Segment.weave, ih]
  | nested hi _ _ _ ihi ih => simp [weaveAll, Segment.weave, ihi, ih, hi]
  | breaker _ ih | anchor _ ih => simp only [weaveAll, Segment.weave, ih, List.nil_append]
  | use hn _ ih =>
    simp only [weaveAll, Segment.weave, hn, Piece.drafts_text, ih, Option.map_some, Option.toList_some,
      List.singleton_append]

/-- The citations are those of the mentions, in their order and in their note. -/
theorem citations (hl : library.Keyed) (h : Become library anchors n segments ps) :
    (Piece.drafts ps).map (fun d => (d.source.id, d.position, d.number)) =
      (allMentions segments).map fun m => (m.source, n.position, n.number) := by
  have hsite {x : Site} {d : Draft} (hd : d.OfSite library x) :
      (d.source.id, d.position, d.number) = (x.mention.source, x.note.position, x.note.number) := by
    rw [hl _ _ hd.source, hd.position, hd.number]
  induction h with
  | done => rfl
  | text _ ih | breaker _ ih | anchor _ ih | use _ _ ih => simpa [allMentions, mentions] using ih
  | mention hd _ ih => simp [allMentions, mentions, ih, hsite hd]
  | nested _ hd _ _ ihi ih => simp [allMentions, mentions, ihi, ih, hsite hd]

end Segment.Become

/-! ## Notes and their citations -/

/-- The pieces of notes are those with their citations put in. -/
theorem Note.weaveAll_settled : ∀ {settled : List SettledNote},
    (∀ s ∈ settled, Segment.Become library anchors s.note s.note.segments s.pieces) →
      weaveAll anchors (settled.map (·.note)) (settled.flatMap fun s => Piece.drafts s.pieces) =
        settled.map (·.pieces)
  | [], _ => rfl
  | s :: settled, h => by
    obtain ⟨hs, h⟩ := List.forall_mem_cons.mp h
    simp only [List.map_cons, List.flatMap_cons, weaveAll, hs.weave, weaveAll_settled h]

namespace Resolution

variable {notes : List Note} {k k' : Desk} {r : Resolution}

/-- **Every mention is cited once and in its place**: the citations are those of the mentions of the notes in their
order, and put back in for the mentions they make up the texts of the notes, one for each and none left over. -/
theorem cited_in_place (hl : library.Keyed) (hr : Gives (ofNotes library notes) k r k') :
    Anchors.ofNotes notes = .ok r.crossrefs ∧
    r.citations.map (fun d => (d.source.id, d.position, d.number)) =
      notes.flatMap (fun n => n.mentions.map fun m => (m.source, n.position, n.number)) ∧
    r.settled.map (·.note) = notes ∧
    r.settled.map (·.pieces) = Note.weaveAll r.crossrefs notes r.citations ∧
    r.texts = (Note.weaveAll r.crossrefs notes r.citations).map Piece.joined ∧
    (Note.weaveAll r.crossrefs notes r.citations).flatMap Piece.drafts = r.citations := by
  obtain ⟨hanchors, hnotes, hbecome⟩ := settled_become hr
  have hweave : Note.weaveAll r.crossrefs notes r.citations = r.settled.map (·.pieces) := by
    rw [← hnotes]
    exact Note.weaveAll_settled hbecome
  refine ⟨hanchors, ?_, hnotes, hweave.symm, ?_, ?_⟩
  · rw [citations, List.map_flatMap, ← hnotes, List.flatMap_map]
    exact List.flatMap_congr fun s hs => (hbecome s hs).citations hl
  · rw [hweave, texts, List.map_map]
    exact List.map_congr_left fun s _ => Piece.join_eq s.pieces
  · rw [hweave, List.flatMap_map]
    rfl

/-- A citation that ends in a full stop takes up the one after it, and the parenthetical of the next holds another. -/
theorem cited_in_place_nested : ∃ d, Document.read 4
      "^[[@a].]^[[?k] [@a]. See [@b] (quoting [@c] (1999)) [$].] ^[Note [?k].]" = .ok d ∧
    ∃ r k', Gives (ofNotes Library.small d.notes) Desk.bare r k' ∧
      r.citations.map (fun d => (d.source.id, d.position, d.number)) =
        d.notes.flatMap (fun n => n.mentions.map fun m => (m.source, n.position, n.number)) ∧
      (Note.weaveAll r.crossrefs d.notes r.citations).map Piece.joined = [
        "**Ash**, **A** [hereinafter **Ash**, **A**].",
        "*Id.* See **ash**, **B** [hereinafter **ash**, **B**] (quoting C, 1 R. 2 (1999)) .",
        "Note 6."].map String.toList := by
  obtain ⟨d, hd, hok⟩ := Except.exists_ok_that
    (x := Document.read 4 "^[[@a].]^[[?k] [@a]. See [@b] (quoting [@c] (1999)) [$].] ^[Note [?k].]")
    (p := fun d => (outcome (ofNotes Library.small d.notes) Desk.bare).1.toOption.any fun r => r.texts = [
        "**Ash**, **A** [hereinafter **Ash**, **A**].",
        "*Id.* See **ash**, **B** [hereinafter **ash**, **B**] (quoting C, 1 R. 2 (1999)) .",
        "Note 6."].map String.toList) (by decide +kernel)
  obtain ⟨r, k', hr, hok⟩ := exists_gives_that hok
  obtain ⟨-, hcited, -, -, htexts, -⟩ := cited_in_place Library.small_keyed hr
  exact ⟨d, hd, r, k', hr, hcited, htexts.symm.trans (of_decide_eq_true hok)⟩

end Resolution

end Footcite
