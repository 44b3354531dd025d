import Footcite.Proofs.Numbering.Citation
import Footcite.Proofs.Numbering.Document
import Footcite.Proofs.Numbering.Ledger
import Footcite.Resolution.Basic

/-!
# Resolution under shifted numbers

Both walks through the notes are taken side by side under the numbers and under the shifted ones. The ledger of the
second is the shifted ledger of the first throughout, and the pieces that they leave differ by the numbers in them
(`Step.takeAll_alike`, `Draft.settle_alike`), so the resolutions do (`Resolution.ofNotes_alike`).
-/

namespace Footcite

open Editing

variable {δ : Int} {user bundled : Table Text}

/-! ## What is alike -/

/-- **A citation and its shifted one**: the same but for the number of its note, and for the number of the note that
its form points back to, in the form and in the text. -/
structure Draft.ShiftedBy (δ : Int) (d e : Draft) : Prop where
  same : e = { d with number := d.number + δ, form := d.form.shifted δ, text := e.text }
  words : d.form.Words δ d.text e.text
  back : ∀ n flag, d.form = .short n flag → d.source.isCase = false

/-- A piece and its shifted one. -/
inductive Piece.ShiftedBy (δ : Int) : Piece → Piece → Prop
  | text (t : Text) : ShiftedBy δ (.text t) (.text t)
  /-- The number of an anchored note. -/
  | numeral (n : Int) : ShiftedBy δ (.text (Numeral.ofInt n)) (.text (Numeral.ofInt (n + δ)))
  | cite {d e : Draft} : d.ShiftedBy δ e → ShiftedBy δ (.cite d) (.cite e)

/-- A settled note and its shifted one. -/
structure SettledNote.ShiftedBy (δ : Int) (n n' : SettledNote) : Prop where
  note : n'.note = n.note.shifted δ
  pieces : List.Forall₂ (Piece.ShiftedBy δ) n.pieces n'.pieces

/-- The numbers of the anchored notes, shifted. -/
def Anchors.shifted (δ : Int) (a : Anchors) : Anchors := Table.mapValues (· + δ) a

/-- **A resolution and its shifted one.** -/
structure Resolution.ShiftedBy (δ : Int) (r r' : Resolution) : Prop where
  settled : List.Forall₂ (SettledNote.ShiftedBy δ) r.settled r'.settled
  crossrefs : r'.crossrefs = r.crossrefs.shifted δ

/-! ## Anchors -/

namespace Anchors

/-- A name is looked up, and the shifted number found. -/
theorem lookup_alike (a : Anchors) (ref : Text) (number : Int) :
    EndsAlike δ (fun n n' => n' = n + δ) (a.lookup ref number) ((a.shifted δ).lookup ref (number + δ)) := by
  have hget : Table.get? (a.shifted δ) ref = (Table.get? a ref).map (· + δ) := Table.get?_mapValues a ref
  unfold lookup
  rw [hget]
  cases Table.get? a ref with
  | none => exact .error (.neverAnchored ref number)
  | some n => exact .ok rfl

theorem bind_alike (a : Anchors) (ref : Text) (number : Int) :
    EndsAlike δ (fun b b' => b' = b.shifted δ) (a.bind ref number) ((a.shifted δ).bind ref (number + δ)) := by
  have hget : Table.get? (a.shifted δ) ref = (Table.get? a ref).map (· + δ) := Table.get?_mapValues a ref
  have hset : Table.set (a.shifted δ) ref (number + δ) = shifted δ (Table.set a ref number) :=
    Table.set_mapValues a ref number
  unfold bind
  rw [hget]
  cases Table.get? a ref with
  | none => exact .ok hset
  | some first => exact .error (.anchoredTwice ref first number)

theorem entries_shifted (notes : List Note) :
    entries (notes.map (Note.shifted δ)) = (entries notes).map fun e => (e.1, e.2 + δ) := by
  simp [entries, List.flatMap_map, List.map_flatMap, Note.shifted, Function.comp_def]

/-- Binding names one after another. -/
theorem bindAll_alike : ∀ (names : List (Text × Int)) (a : Anchors),
    EndsAlike δ (fun b b' => b' = b.shifted δ) (names.foldlM (fun a (ref, number) => a.bind ref number) a)
      ((names.map fun e => (e.1, e.2 + δ)).foldlM (fun a (ref, number) => Anchors.bind a ref number) (a.shifted δ))
  | [], _ => .ok rfl
  | (ref, number) :: names, a => by
    rw [List.map_cons, List.foldlM_cons, List.foldlM_cons]
    refine (bind_alike a ref number).bind ?_
    rintro b _ rfl
    exact bindAll_alike names b

/-- The anchors of notes under shifted numbers. -/
theorem ofNotes_alike (notes : List Note) :
    EndsAlike δ (fun a a' => a' = a.shifted δ) (ofNotes notes) (ofNotes (notes.map (Note.shifted δ))) := by
  unfold ofNotes
  rw [entries_shifted]
  exact bindAll_alike (entries notes) []

end Anchors

/-! ## The first walk -/

variable (library : Library)

/-- A mention is cited alike. -/
theorem Draft.write_alike (n : Note) (l : Ledger) (m : Mention) (parenthetical : Option Text) (before : List Segment) :
    Alike user bundled δ (fun a b => a.1.ShiftedBy δ b.1 ∧ b.2 = a.2.shifted δ)
      (Draft.write library n l m parenthetical before)
      (Draft.write library (n.shifted δ) (l.shifted δ) m parenthetical before) := by
  unfold Draft.write
  cases library.get? m.source with
  | none => exact .throw (.unknownSource m.source n.number)
  | some source =>
    have hclean : EndsAlike δ Eq (Pincite.clean source.id m.pincite) (Pincite.clean source.id m.pincite) :=
      .refl fun _ h => (source.clean_fault h).shifted
    refine ((Alike.liftM hclean).inNote n.number).bind ?_
    rintro pincite _ rfl
    refine (Alike.liftM (l.choose_alike source n.position n.number pincite _)).bind ?_
    rintro ⟨form, l₁⟩ _ ⟨rfl, hchoice⟩
    refine ((source.cite_alike hchoice.isCase_of_short pincite parenthetical).inNote n.number).bind ?_
    intro t u hwords
    refine (Alike.note _ _).bind fun _ _ _ => .pure ⟨⟨rfl, hwords, hchoice.isCase_of_short⟩, ?_⟩
    exact l₁.enterCitation_shifted source.id n.position m.inString pincite

/-- **A step is taken alike.** -/
theorem Step.take_alike (anchors : Anchors) (n : Note) (l : Ledger) (s : Step) :
    Alike user bundled δ (fun a b => List.Forall₂ (Piece.ShiftedBy δ) a.1 b.1 ∧ b.2 = a.2.shifted δ)
      (s.take library anchors n l) (s.take library (anchors.shifted δ) (n.shifted δ) (l.shifted δ)) := by
  cases s with
  | text t => exact .pure ⟨.cons (.text t) .nil, rfl⟩
  | cite m parenthetical before =>
    refine (Draft.write_alike library n l m parenthetical before).bind ?_
    rintro ⟨d, l₁⟩ ⟨e, _⟩ ⟨hd, rfl⟩
    exact .pure ⟨.cons (.cite hd) .nil, rfl⟩
  | interrupt => exact .pure ⟨.nil, rfl⟩
  | use ref =>
    refine (Alike.liftM (anchors.lookup_alike ref n.number)).bind ?_
    rintro number _ rfl
    refine (Alike.liftM (Numeral.write_alike number)).bind ?_
    rintro _ _ ⟨rfl, rfl⟩
    exact .pure ⟨.cons (.numeral number) .nil, rfl⟩

/-- Steps are taken alike. -/
theorem Step.takeAll_alike (anchors : Anchors) (n : Note) : ∀ (steps : List Step) (l : Ledger),
    Alike user bundled δ (fun a b => List.Forall₂ (Piece.ShiftedBy δ) a.1 b.1 ∧ b.2 = a.2.shifted δ)
      (Step.takeAll library anchors n l steps)
      (Step.takeAll library (anchors.shifted δ) (n.shifted δ) (l.shifted δ) steps)
  | [], _ => .pure ⟨.nil, rfl⟩
  | s :: steps, l => by
    refine (Step.take_alike library anchors n l s).bind ?_
    rintro ⟨pieces, l₁⟩ ⟨pieces', _⟩ ⟨hpieces, rfl⟩
    refine (takeAll_alike anchors n steps l₁).bind ?_
    rintro ⟨more, l₂⟩ ⟨more', _⟩ ⟨hmore, rfl⟩
    exact .pure ⟨List.rel_append hpieces hmore, rfl⟩

/-- Notes are walked through alike. -/
theorem Note.draftAll_alike (anchors : Anchors) : ∀ (notes : List Note) (l : Ledger),
    Alike user bundled δ (fun a b => List.Forall₂ (List.Forall₂ (Piece.ShiftedBy δ)) a.1 b.1 ∧ b.2 = a.2.shifted δ)
      (Note.draftAll library anchors l notes)
      (Note.draftAll library (anchors.shifted δ) (l.shifted δ) (notes.map (Note.shifted δ)))
  | [], _ => .pure ⟨.nil, rfl⟩
  | n :: notes, l => by
    refine (Step.takeAll_alike library anchors n n.steps l).bind ?_
    rintro ⟨pieces, l₁⟩ ⟨pieces', _⟩ ⟨hpieces, rfl⟩
    refine (draftAll_alike anchors notes l₁).bind ?_
    rintro ⟨more, l₂⟩ ⟨more', _⟩ ⟨hmore, rfl⟩
    exact .pure ⟨.cons hpieces hmore, rfl⟩

/-! ## The second walk -/

theorem Form.hereinafter?_shifted (f : Form) : (f.shifted δ).hereinafter? = f.hereinafter? := by
  cases f <;> rfl

theorem Form.withHereinafter_shifted (f : Form) (flag : Bool) :
    (f.shifted δ).withHereinafter flag = (f.withHereinafter flag).shifted δ := by
  cases f <;> rfl

/-- A form that points back does so before its flag is set. -/
theorem Form.short_of_withHereinafter {f : Form} {flag flag' : Bool} {n : Int}
    (h : f.withHereinafter flag = .short n flag') : ∃ flag'', f = .short n flag'' := by
  cases f with
  | short m g =>
    cases h
    exact ⟨g, rfl⟩
  | _ => cases h

/-- **A citation is settled alike.** -/
theorem Draft.settle_alike (l : Ledger) {d e : Draft} (h : d.ShiftedBy δ e) :
    Alike user bundled δ (Draft.ShiftedBy δ) (d.settle l) (e.settle (l.shifted δ)) := by
  have hsame := h.same
  have hform : e.form.hereinafter? = d.form.hereinafter? := by
    rw [hsame]
    exact d.form.hereinafter?_shifted
  have hsource : e.source = d.source := by rw [hsame]
  unfold Draft.settle
  rw [hform, hsource, Ledger.get?_shifted]
  cases d.form.hereinafter? with
  | none => exact .pure h
  | some flag =>
    cases l.records.get? d.source.id with
    | none => exact .throw (.noRecord d.source.id)
    | some r =>
      simp only [Option.map_some]
      -- The record has its flag in both ledgers, so both citations are written anew or neither is.
      have hflag : (r.shifted δ).hereinafter = r.hereinafter := rfl
      rw [hflag]
      split
      · exact .pure h
      · have hback : ∀ n flag', d.form.withHereinafter r.hereinafter = .short n flag' → d.source.isCase = false := by
          intro n flag' hshort
          obtain ⟨flag'', hd⟩ := Form.short_of_withHereinafter hshort
          exact h.back n flag'' hd
        rw [hsame, Form.withHereinafter_shifted]
        refine ((d.source.cite_alike hback d.pincite d.parenthetical).inNote d.number).bind ?_
        intro t u hwords
        exact .pure ⟨rfl, hwords, hback⟩

theorem Piece.settle_alike (l : Ledger) {p q : Piece} (h : p.ShiftedBy δ q) :
    Alike user bundled δ (Piece.ShiftedBy δ) (p.settle l) (q.settle (l.shifted δ)) := by
  cases h with
  | text t => exact .pure (.text t)
  | numeral n => exact .pure (.numeral n)
  | cite hd => exact (Draft.settle_alike l hd).map fun _ _ h => .cite h

/-! ## The whole resolution -/

namespace Resolution

/-- Notes with their pieces. -/
theorem settled_alike : ∀ (notes : List Note) {pss qss : List (List Piece)},
    List.Forall₂ (List.Forall₂ (Piece.ShiftedBy δ)) pss qss →
      List.Forall₂ (SettledNote.ShiftedBy δ) (List.zipWith SettledNote.mk notes pss)
        (List.zipWith SettledNote.mk (notes.map (Note.shifted δ)) qss)
  | [], _, _, _ => .nil
  | _ :: _, _, _, .nil => .nil
  | _ :: notes, _, _, .cons hps hpss => .cons ⟨rfl, hps⟩ (settled_alike notes hpss)

/-- **Notes are resolved alike under shifted numbers.** -/
theorem ofNotes_alike (notes : List Note) :
    Alike user bundled δ (ShiftedBy δ) (ofNotes library notes) (ofNotes library (notes.map (Note.shifted δ))) := by
  unfold ofNotes
  -- What the desks know of journals beforehand shows in the notices only, and these are not compared.
  refine Alike.get.bind fun _ _ _ => ?_
  refine (Alike.liftM (Anchors.ofNotes_alike notes)).bind ?_
  rintro crossrefs _ rfl
  refine (Note.draftAll_alike library crossrefs notes {}).bind ?_
  rintro ⟨pieces, ledger⟩ ⟨pieces', _⟩ ⟨hpieces, rfl⟩
  refine (Alike.mapM (fun _ _ h => Alike.mapM (fun _ _ h => Piece.settle_alike ledger h) h) hpieces).bind ?_
  intro settled settled' hsettled
  refine Alike.get.bind fun _ _ _ => ?_
  exact (Alike.note _ _).bind fun _ _ _ => .pure ⟨settled_alike notes hsettled, rfl⟩

end Resolution

end Footcite
