import Footcite.Proofs.Citation.Steady
import Footcite.Proofs.Gives
import Footcite.Resolution.Basic

/-!
# Documents are steady

A whole document is worked through in the same way at every desk that the tables serve, whatever was asked and cited at
the desk before (`process_steady`): both walks through its notes ask the journals for abbreviations, and look at the
desk no further (`Note.draftAll_asking`, `Piece.settleNotes_asking`). The citations, the cross-references, the output and
the failures are settled by the tables; what a desk adds of its own is only which of the names abbreviated by rule are
new to it (`Resolution.withoutNotices`).
-/

namespace Footcite

open Editing

variable {user bundled : Table Text} {shown : Int → Prop}

/-! ## The first walk -/

theorem Draft.write_asking (library : Library) {n : Note} (hn : shown n.number) (l : Ledger) (m : Mention)
    (parenthetical : Option Text) (before : List Segment) :
    Asking shown (Draft.write library n l m parenthetical before) := by
  unfold Draft.write
  cases library.get? m.source with
  | none => exact .throw _
  | some source =>
    exact (Asking.adapt _ (.liftM _)).bind fun pincite => (Asking.liftM _).bind fun chosen =>
      (Asking.adapt _ (source.cite_asking _ _ _)).bind fun text =>
        (Asking.note (.decided n.number source.id chosen.1) hn).bind fun _ => .pure _

theorem Step.take_asking (library : Library) (anchors : Anchors) {n : Note} (hn : shown n.number) (l : Ledger) :
    ∀ s : Step, Asking shown (s.take library anchors n l)
  | .text _ => .pure _
  | .cite m parenthetical before => (Draft.write_asking library hn l m parenthetical before).bind fun _ => .pure _
  | .interrupt => .pure _
  | .use _ => (Asking.liftM _).bind fun _ => (Asking.liftM _).bind fun _ => .pure _

theorem Step.takeAll_asking (library : Library) (anchors : Anchors) {n : Note} (hn : shown n.number) :
    ∀ (l : Ledger) (steps : List Step), Asking shown (Step.takeAll library anchors n l steps)
  | _, [] => .pure _
  | l, s :: rest => (s.take_asking library anchors hn l).bind fun (_, l₁) =>
      (Step.takeAll_asking library anchors hn l₁ rest).bind fun _ => .pure _

/-- The first walk asks for abbreviations only. -/
theorem Note.draftAll_asking (library : Library) (anchors : Anchors) :
    ∀ (l : Ledger) {notes : List Note}, (∀ n ∈ notes, shown n.number) →
      Asking shown (Note.draftAll library anchors l notes)
  | _, [], _ => .pure _
  | l, n :: _, hn => (Step.takeAll_asking library anchors (hn n List.mem_cons_self) l n.steps).bind fun (_, l₁) =>
      (Note.draftAll_asking library anchors l₁ fun n' h => hn n' (List.mem_cons_of_mem n h)).bind fun _ => .pure _

/-- The first walk is steady. -/
theorem Note.draftAll_steady (library : Library) (anchors : Anchors) (l : Ledger) (notes : List Note) :
    Steady user bundled (Note.draftAll library anchors l notes) :=
  Asking.steady (Note.draftAll_asking library anchors l fun _ _ => trivial)

/-! ## The second walk -/

theorem Draft.settle_asking (l : Ledger) (d : Draft) : Asking shown (d.settle l) := by
  unfold Draft.settle
  split
  · exact .pure _
  · split
    · exact .throw _
    · split
      · exact .pure _
      · exact (Asking.adapt _ (d.source.cite_asking _ _ _)).bind fun _ => .pure _

theorem Piece.settle_asking (l : Ledger) : ∀ p : Piece, Asking shown (p.settle l)
  | .text _ => .pure _
  | .cite d => (d.settle_asking l).map _

/-- The second walk asks for abbreviations only. -/
theorem Piece.settleNotes_asking (l : Ledger) (pss : List (List Piece)) :
    Asking shown (pss.mapM fun ps => ps.mapM (Piece.settle l)) := .mapM (.mapM (Piece.settle_asking l)) pss

/-! ## The whole document -/

/-- A resolution, the notices aside. -/
def Resolution.withoutNotices (r : Resolution) : Resolution := { r with notices := [] }

/-- What comes of a document, the notices aside. -/
def Processed.withoutNotices (p : Processed) : Processed := { p with resolution := p.resolution.withoutNotices }

/-- A look at the desk is no matter when nothing comes of it. -/
theorem Editing.Steady.unread {α : Type} {x : Editing α} (hx : Steady user bundled x) :
    Steady user bundled ((get : Editing Desk) >>= fun _ => x) := by
  obtain ⟨r, hr⟩ := hx
  refine ⟨r, fun k hk => ?_⟩
  obtain ⟨k', ho, hk'⟩ := hr k hk
  exact ⟨k', by rw [outcome_bind, outcome_get]; exact ho, hk'⟩

/-- **The notes of a document are resolved in the same way at every desk that the tables serve.** -/
theorem Resolution.ofNotes_steady (library : Library) (notes : List Note) :
    Steady user bundled (withoutNotices <$> ofNotes library notes) := by
  -- The number of citations that the log is told does not look at the notices.
  simp only [ofNotes, map_bind, map_pure, withoutNotices, citations]
  refine .unread ?_
  refine (Steady.liftM _).bind fun crossrefs => ?_
  refine (Note.draftAll_steady library crossrefs {} notes).bind fun (drafts, l) => ?_
  refine (Piece.settleNotes_asking l drafts).steady.bind fun pieces => ?_
  exact .unread ((Steady.note _).bind fun _ => .pure _)

/-- **A document is worked through in the same way at every desk that the tables serve.** -/
theorem process_steady (library : Library) (offset : Int) (smallCaps : Bool) (t : Text) :
    Steady user bundled (Processed.withoutNotices <$> process library offset smallCaps t) := by
  simp only [process, map_bind, map_pure]
  refine (Steady.liftM _).bind fun document => (Steady.note _).bind fun _ => ?_
  have hnotes : Steady user bundled (Resolution.withoutNotices <$> Resolution.ofNotes library document.notes) :=
    Resolution.ofNotes_steady library document.notes
  have hfilled := Steady.map (fun r : Resolution =>
    let filled := document.fill r.texts
    (⟨document, r, if smallCaps then filled.smallCaps else filled⟩ : Processed)) hnotes
  -- The texts of the notes and the output do not look at the notices.
  simpa only [Functor.map_map, ← bind_pure_comp, bind_assoc, pure_bind, Processed.withoutNotices,
    Resolution.withoutNotices, Resolution.texts] using hfilled

end Footcite
