import Footcite.Proofs.Citation.Nonempty
import Footcite.Proofs.Document.Output
import Footcite.Proofs.Note.Openings

/-!
# Working through the output again

Once a document has been worked through, no token is left to work on, provided that its citations do not look like
tokens and that no two texts of a note come together as one. Texts do so where breakers alone stand between them, and
that a token opens there is the only way for one to come about (`Resolution.occursIn_text`). The output of such a
document is worked through without change (`process_again`).
-/

namespace Footcite

open Token

variable {library : Library} {user bundled : Table Text} {k k₁ k' : Desk}

/-! ## Tokens in the text of a note -/

/-- Numerals open no token. -/
theorem Numeral.inert_ofInt (n : Int) : Inert (ofInt n) := by
  have hdigits (k : Nat) : ∀ c ∈ ofNat k, (c.isDigit || c = '-') = true := fun c hc => by
    rw [Nat.isDigit_of_mem_toDigits (by decide) (by decide) hc, Bool.true_or]
  refine .of_all (p := fun c => c.isDigit || c = '-') (by decide) ?_ ?_
  · cases n with
    | ofNat k => exact Nat.toDigits_ne_nil
    | negSucc k => exact List.cons_ne_nil _ _
  · cases n with
    | ofNat k => exact hdigits k
    | negSucc k => exact List.forall_mem_cons.mpr ⟨rfl, hdigits (k + 1)⟩

/-- A full stop that is taken up opens no token and keeps none from opening. -/
theorem Piece.opensIn_joinAfter {stop bracket : Bool} {ps : List Piece} (hs : stop = true → bracket = false)
    (hc : ∀ d, .cite d ∈ ps → Inert d.text) :
    opensIn bracket (Piece.joinAfter stop ps) = opensIn bracket (ps.flatMap Piece.words) := by
  fun_induction Piece.joinAfter stop ps generalizing bracket with
  | case1 => rfl
  | case2 stop t rest ih =>
    have hrest : opensIn (Text.endsIn '[' bracket ('.' :: t)) (Piece.joinAfter false rest) = _ :=
      ih (by simp) fun d hd => hc d (.tail _ hd)
    rw [List.flatMap_cons, Token.opensIn_append, Token.opensIn_append, Piece.words, ← hrest]
    cases stop with
    | true =>
      rw [hs rfl, if_pos rfl, Token.opensIn, Text.endsIn_cons]
      rfl
    | false => rfl
  | case3 stop t rest _ ih =>
    rw [List.flatMap_cons, Token.opensIn_append, Token.opensIn_append, Piece.words,
      ih (by simp) fun d hd => hc d (.tail _ hd)]
  | case4 stop d rest ih =>
    have hd := hc d List.mem_cons_self
    rw [List.flatMap_cons, Piece.words, hd.opensIn_append, hd.opensIn_append,
      ih (by simp) fun d hd => hc d (.tail _ hd)]

namespace Segment.Become

variable {anchors : Anchors} {n : Note} {segments : List Segment} {ps : List Piece}

/-- No token opens in the parentheticals of the citations. -/
theorem clean (h : Become library anchors n segments ps) (hs : ∀ s ∈ allParts segments, s.Clean) :
    ∀ d, .cite d ∈ ps → ∀ p, d.parenthetical = some p → occursIn p = false := by
  induction h with
  | done => simp
  | text _ ih | use _ _ ih => simpa using ih (List.forall_mem_cons.mp hs).2
  | breaker _ ih | anchor _ ih => exact ih (List.forall_mem_cons.mp hs).2
  | mention hd _ ih =>
    obtain ⟨hm, hs⟩ := List.forall_mem_cons.mp hs
    intro e he
    rcases List.mem_cons.mp he with he | he
    · cases he
      rw [hd.parenthetical]
      exact hm
    · exact ih hs e he
  | nested _ hd _ _ ihi ih =>
    simp only [allParts_cons, parts, List.cons_append, List.forall_mem_cons, List.forall_mem_append] at hs
    obtain ⟨-, hsi, hs⟩ := hs
    intro e he
    simp only [List.mem_cons, List.mem_append, reduceCtorEq, false_or, Piece.cite.injEq] at he
    rcases he with rfl | he | he
    · simp [hd.parenthetical]
    · exact ihi hsi e he
    · exact ih hs e he

/-- **A token opens in what segments become exactly at a seam**, as long as none opens in the texts themselves. -/
theorem opensIn_words (h : Become library anchors n segments ps) (hs : ∀ s ∈ allParts segments, s.Clean)
    (hc : ∀ d, .cite d ∈ ps → Inert d.text) (bracket : Bool) :
    opensIn bracket (ps.flatMap Piece.words) = seam bracket segments := by
  induction h generalizing bracket with
  | done => rfl
  | @text t _ _ _ ih =>
    obtain ⟨ht, hs⟩ := List.forall_mem_cons.mp hs
    have ht : occursIn t = false := ht
    rw [List.flatMap_cons, Piece.words, Token.opensIn_append, ih hs fun d hd => hc d (.tail _ hd), Token.opensIn_eq, ht,
      Bool.or_false]
    rfl
  | mention _ _ ih =>
    obtain ⟨-, hs⟩ := List.forall_mem_cons.mp hs
    rw [List.flatMap_cons, Piece.words, (hc _ List.mem_cons_self).opensIn_append, ih hs fun d hd => hc d (.tail _ hd)]
    rfl
  | nested _ _ _ _ ihi ih =>
    simp only [allParts_cons, parts, List.cons_append, List.forall_mem_cons, List.forall_mem_append] at hs
    obtain ⟨-, hsi, hs⟩ := hs
    have hinner := ihi hsi fun d hd => hc d (by simp [hd])
    have hrest := ih hs fun d hd => hc d (by simp [hd])
    have hopen : Inert " (" := ⟨rfl, rfl⟩
    have hclose : Inert ")" := ⟨rfl, rfl⟩
    rw [List.flatMap_cons, Piece.words, (hc _ List.mem_cons_self).opensIn_append, List.flatMap_cons, Piece.words,
      hopen.opensIn_append, List.flatMap_append, Token.opensIn_append, hinner, List.flatMap_cons, Piece.words,
      hclose.opensIn_append, hrest]
    rfl
  | breaker _ ih | anchor _ ih => exact ih (List.forall_mem_cons.mp hs).2 hc bracket
  | use _ _ ih =>
    obtain ⟨-, hs⟩ := List.forall_mem_cons.mp hs
    rw [List.flatMap_cons, Piece.words, (Numeral.inert_ofInt _).opensIn_append, ih hs fun d hd => hc d (.tail _ hd)]
    rfl

end Segment.Become

/-- A citation opens no token if it does not without its parenthetical. -/
theorem Draft.Written.inert {e : Draft} (hw : e.Written user bundled) (hk : k.journals.Serves user bundled)
    (hb : ∀ bare, (outcome (e.source.cite e.form e.pincite none) k).1 = .ok bare →
      square.Balanced bare ∧ occursIn bare = false ∧ bare.head?.any isMark = false)
    (hp : ∀ p, e.parenthetical = some p → occursIn p = false) : Inert e.text := by
  obtain ⟨bare, hbare, ht⟩ := Source.cite_eq_ok (hw k hk)
  obtain ⟨hbalanced, hopens, hmark⟩ := hb bare hbare
  have hgives : Gives (e.source.cite e.form e.pincite none) k bare (outcome _ k).2 := Prod.ext hbare rfl
  have hinert : Inert bare := .of_balanced (Source.cite_ne_nil hgives) hbalanced hopens hmark
  rw [ht]
  cases hpar : e.parenthetical with
  | none => exact (List.append_nil bare).symm ▸ hinert
  | some p =>
    cases p with
    | nil => exact (List.append_nil bare).symm ▸ hinert
    | cons c p =>
      have hmarkdown : Styled.markdown (Source.parenthesis (some (c :: p))) = " (" ++ (c :: p) ++ ")" :=
        List.append_nil _
      rw [hmarkdown]
      exact hinert.append (inert_parentheses (hp _ hpar))

namespace Resolution

variable {notes : List Note} {r : Resolution}

/-- **A token opens in a resolved text exactly where its note has a seam**, if no citation looks like a token. -/
theorem occursIn_text (hk : k.journals.Serves user bundled) (hk₁ : k₁.journals.Serves user bundled)
    (hn : ∀ n ∈ notes, ∃ position number body, Note.read position number body = .ok n)
    (hr : Gives (ofNotes library notes) k₁ r k')
    (hb : ∀ e ∈ r.citations, ∀ bare, (outcome (e.source.cite e.form e.pincite none) k).1 = .ok bare →
      square.Balanced bare ∧ occursIn bare = false ∧ bare.head?.any isMark = false) :
    ∀ s ∈ r.settled, occursIn s.text = Segment.seam false s.note.segments := by
  obtain ⟨-, hnotes, hbecome⟩ := settled_become hr
  intro s hs
  obtain ⟨position, number, body, hread⟩ := hn s.note (hnotes ▸ List.mem_map_of_mem hs)
  have hclean := Note.clean_of_read hread
  have hcites (d : Draft) (hd : .cite d ∈ s.pieces) : Inert d.text := by
    have hmem : d ∈ r.citations :=
      List.mem_flatMap.mpr ⟨s, hs, List.mem_filterMap.mpr ⟨.cite d, hd, rfl⟩⟩
    exact (text_eq hk₁ hr d hmem).inert hk (hb d hmem) ((hbecome s hs).clean hclean d hd)
  rw [SettledNote.text, Piece.join, occursIn_trim, occursIn_eq, Piece.opensIn_joinAfter (by simp) hcites]
  exact (hbecome s hs).opensIn_words hclean hcites false

end Resolution

/-! ## Notes without tokens -/

/-- The pieces of a body without tokens. -/
def Piece.plain : Text → List Piece
  | [] => []
  | c :: t => [.text (c :: t)]

theorem Piece.join_plain : ∀ body : Text, join (plain body) = body.trim
  | [] => rfl
  | c :: t => by
    refine congrArg Text.trim ?_
    unfold plain joinAfter
    split <;> simp_all [joinAfter]

theorem Step.takeAll_plain (anchors : Anchors) (n : Note) (l : Ledger) : ∀ body : Text,
    takeAll library anchors n l (Segment.allSteps [] (Segment.plain body)) = pure (Piece.plain body, l)
  | [] => rfl
  | c :: t => Step.takeAll_singleton_eq (.text (c :: t)) l

/-- Notes without tokens are drafted as they are. -/
theorem Note.draftAll_plain (anchors : Anchors) (l : Ledger) : ∀ {notes : List Note} {bodies : List Text},
    notes.map (·.segments) = bodies.map Segment.plain →
      draftAll library anchors l notes = pure (bodies.map Piece.plain, l)
  | [], [], _ => rfl
  | n :: notes, body :: bodies, h => by
    simp only [List.map_cons, List.cons.injEq] at h
    rw [draftAll, steps, h.1, Step.takeAll_plain]
    simp only [pure_bind, draftAll_plain anchors l h.2, List.map_cons]
  | [], _ :: _, h => by cases h
  | _ :: _, [], h => by cases h

theorem Piece.settle_plain (l : Ledger) : ∀ body : Text, (plain body).mapM (Piece.settle l) = pure (plain body)
  | [] => rfl
  | c :: t => by simp [plain, Piece.settle]

theorem Piece.settleAll_plain (l : Ledger) : ∀ bodies : List Text,
    (bodies.map plain).mapM (fun ps => ps.mapM (Piece.settle l)) = pure (bodies.map plain)
  | [] => rfl
  | body :: bodies => by
    rw [List.map_cons, List.mapM_cons, settle_plain, settleAll_plain l bodies, pure_bind, pure_bind]

/-- Notes without tokens are anchored under no name. -/
theorem Anchors.ofNotes_plain {notes : List Note} {bodies : List Text}
    (h : notes.map (·.segments) = bodies.map Segment.plain) : Anchors.ofNotes notes = .ok [] := by
  have hentries : entries notes = [] := by
    refine List.flatMap_eq_nil_iff.mpr fun n hn => ?_
    have hmem : n.segments ∈ bodies.map Segment.plain := h ▸ List.mem_map_of_mem hn
    obtain ⟨body, -, hbody⟩ := List.mem_map.mp hmem
    rw [← hbody]
    cases body <;> rfl
  rw [Anchors.ofNotes, hentries]
  rfl

namespace Resolution

/-- **Notes without tokens are resolved to their bodies**, trimmed. -/
theorem ofNotes_plain (library : Library) {notes : List Note} {bodies : List Text}
    (h : notes.map (·.segments) = bodies.map Segment.plain) (k : Desk) :
    ∃ r k', Gives (ofNotes library notes) k r k' ∧ r.texts = bodies.map Text.trim := by
  have hgives : ∃ k', Gives (ofNotes library notes) k ⟨List.zipWith SettledNote.mk notes (bodies.map Piece.plain), [],
      k.journals.notices.drop k.journals.notices.length⟩ k' := by
    simp [ofNotes, Anchors.ofNotes_plain h, Note.draftAll_plain _ _ h, Piece.settleAll_plain, -List.mapM_map]
  obtain ⟨k', hgives⟩ := hgives
  refine ⟨_, k', hgives, ?_⟩
  have hlength : notes.length = bodies.length := by simpa using congrArg List.length h
  refine List.ext_getElem (by simp [texts, hlength]) fun i hi hi' => ?_
  simp [texts, SettledNote.text, Piece.join_plain]

end Resolution

namespace Document

/-- A text without tokens in its notes is read. -/
theorem ofLayout_plain (offset : Int) : ∀ (l : Layout) (position : Int), l.Closed →
    (∀ b ∈ l.bodies, occursIn b = false) → ∃ d, ofLayout offset position l = .ok d ∧
      d.notes.map (·.segments) = l.bodies.map Segment.plain
  | .prose t, _, _, _ => ⟨⟨[], t⟩, rfl, rfl⟩
  | .unclosed _ _, _, hc, _ => absurd hc id
  | .note before body rest, position, hc, hb => by
    obtain ⟨hbody, hb⟩ := List.forall_mem_cons.mp hb
    obtain ⟨d, hd, hsegments⟩ := ofLayout_plain offset rest (position + 1) hc hb
    refine ⟨⟨⟨before, body, position, position + offset, Segment.plain body⟩ :: d.placed, d.rest⟩, ?_, ?_⟩
    · rw [ofLayout, Note.read_plain hbody, hd]
      rfl
    · rw [Layout.bodies, List.map_cons, ← hsegments]
      rfl

end Document

/-- The bodies that are there change nothing. -/
theorem Layout.withBodies_bodies : ∀ l : Layout, l.withBodies l.bodies = l
  | prose _ | unclosed .. => rfl
  | note before body rest => by rw [bodies, withBodies, withBodies_bodies rest]

/-- Closed notes stay closed with other bodies. -/
theorem Layout.closed_withBodies : ∀ (l : Layout) (bs : List Text), (l.withBodies bs).Closed ↔ l.Closed
  | prose _, _ | unclosed .., _ | note .., [] => Iff.rfl
  | note _ _ rest, _ :: bs => closed_withBodies rest bs

/-- **A document without tokens in its notes is its own output**, if no blanks stand at the ends of the notes. -/
theorem process_plain {t : Text} (hc : (Layout.ofText t).Closed)
    (hb : ∀ b ∈ (Layout.ofText t).bodies, occursIn b = false ∧ b.trim = b) (offset : Int) (k : Desk) :
    ∃ p k', Gives (process library offset false t) k p k' ∧ p.output = t := by
  obtain ⟨d, hd, hsegments⟩ := Document.ofLayout_plain offset _ 1 hc fun b h => (hb b h).1
  obtain ⟨r, k', hr, htexts⟩ := Resolution.ofNotes_plain library hsegments
    { k with log := k.log ++ [.foundNotes d.placed.length] }
  have htexts : r.texts = (Layout.ofText t).bodies := by
    rw [htexts]
    exact (List.map_congr_left fun b h => (hb b h).2).trans (List.map_id _)
  refine ⟨⟨d, r, d.fill r.texts⟩, k', gives_process.mpr ⟨d, r, hd, hr, rfl⟩, ?_⟩
  show d.fill r.texts = t
  rw [(Document.ofLayout_bodies hd).2.2.2 _ (by rw [htexts]), htexts, Layout.withBodies_bodies]
  exact Layout.text_scan false t

/-- **The output is worked through without change**, if no citation looks like a token and no note has a seam. Then no
token opens in the resolved texts; and a seam is the only thing that can make one open there. -/
theorem process_again {offset : Int} {t : Text} {p : Processed} (hk : k.journals.Serves user bundled)
    (hp : Gives (process library offset false t) k p k')
    (hb : ∀ e ∈ p.resolution.citations, ∀ bare, (outcome (e.source.cite e.form e.pincite none) k).1 = .ok bare →
      square.Balanced bare ∧ occursIn bare = false ∧ bare.head?.any isMark = false) :
    ((∀ n ∈ p.document.notes, Segment.seam false n.segments = false) ↔
      ∀ text ∈ p.resolution.texts, occursIn text = false) ∧
    ((∀ n ∈ p.document.notes, Segment.seam false n.segments = false) →
      ∀ k₂ : Desk, ∃ p' k₃, Gives (process library offset false p.output) k₂ p' k₃ ∧ p'.output = p.output) := by
  obtain ⟨d, r, hd, hr, rfl⟩ := gives_process.mp hp
  obtain ⟨hclosed, hlength, hnotes, hfill⟩ := Document.ofLayout_bodies hd
  have hk₁ : ({ k with log := k.log ++ [.foundNotes d.placed.length] } : Desk).journals.Serves user bundled := hk
  have hsettled := (Resolution.settled_become hr).2.1
  have hopens := Resolution.occursIn_text hk hk₁ (fun n hn => Document.exists_body hd hn) hr hb
  have hiff : (∀ n ∈ d.notes, Segment.seam false n.segments = false) ↔ ∀ text ∈ r.texts, occursIn text = false := by
    rw [← hsettled, Resolution.texts, List.forall_mem_map, List.forall_mem_map]
    exact forall₂_congr fun s hs => by rw [hopens s hs]
  refine ⟨hiff, fun hseam k₂ => ?_⟩
  have hcount : r.texts.length = (Layout.ofText t).bodies.length := by
    rw [← hlength, ← congrArg List.length hsettled]
    simp [Resolution.texts]
  have hbalanced : ∀ b ∈ r.texts, square.Balanced b := by
    refine Resolution.balanced_texts hk hk₁ (fun n hn => ?_) hr fun e he bare hbare => (hb e he bare hbare).1
    obtain ⟨body, hbody, hread⟩ := hnotes n hn
    exact ⟨body, Layout.balanced_of_mem_bodies hbody, hread⟩
  have hlayout : Layout.ofText (d.fill r.texts) = (Layout.ofText t).withBodies r.texts := by
    rw [hfill r.texts hcount]
    exact Layout.scan_withBodies hclosed hbalanced hcount
  have hagain : (Layout.ofText (d.fill r.texts)).Closed ∧
      ∀ b ∈ (Layout.ofText (d.fill r.texts)).bodies, occursIn b = false ∧ b.trim = b := by
    rw [hlayout, Layout.closed_withBodies, Layout.bodies_withBodies hcount]
    refine ⟨hclosed, fun b hb => ⟨hiff.mp hseam b hb, ?_⟩⟩
    obtain ⟨s, -, rfl⟩ := List.mem_map.mp hb
    exact Text.trim_trim _
  exact process_plain hagain.1 hagain.2 offset k₂

/-- A breaker between an opening bracket and what looks like the rest of a mention: the two come together, and the
output holds a mention that the document does not. -/
theorem process_again_seam : ∃ p k', Gives (process [] 0 false "^[[[$]@x]]") Desk.bare p k' ∧
    (∀ e ∈ p.resolution.citations, ∀ bare,
      (outcome (e.source.cite e.form e.pincite none) Desk.bare).1 = .ok bare →
        square.Balanced bare ∧ occursIn bare = false ∧ bare.head?.any isMark = false) ∧
    ¬(∀ text ∈ p.resolution.texts, occursIn text = false) ∧
    (outcome (process [] 0 false p.output) Desk.bare).1 = .error (.unknownSource "x" 1) := by
  obtain ⟨p, k', hp, hok⟩ := exists_gives_that (s := Desk.bare) (x := process [] 0 false "^[[[$]@x]]")
    (p := fun p => p.resolution.citations.isEmpty && p.resolution.texts = [("[@x]" : Text)] &&
      p.output = "^[[@x]]".toList) (by decide +kernel)
  simp only [Bool.and_eq_true, decide_eq_true_eq, List.isEmpty_iff] at hok
  obtain ⟨⟨hnone, htexts⟩, houtput⟩ := hok
  have hfails : (outcome (process [] 0 false "^[[@x]]") Desk.bare).1 = .error (.unknownSource "x" 1) :=
    Except.eq_error_of_map (f := fun _ => ()) (by decide +kernel)
  refine ⟨p, k', hp, by simp [hnone], fun h => ?_, by rw [houtput]; exact hfails⟩
  exact absurd (h "[@x]" (by rw [htexts]; exact List.mem_singleton_self _)) (by decide)

/-- A breaker in a note where it makes no seam, brackets of the note and of its citations, and full stops that are taken
up. -/
def Text.resolvedOnce : Text :=
  "One^[[?x] See [@a] 3 (citing [@b] [sic]). [[$]c].] \\^[two]^[[@a] (a).]^[As in note [?x], [@c] (1[2]).]^"

/-- What comes of such a document stays as it is. -/
theorem process_again_brackets : ∃ p k', Gives (process Library.small 0 false Text.resolvedOnce) Desk.bare p k' ∧
    (∀ text ∈ p.resolution.texts, occursIn text = false) ∧
    ∃ p' k₃, Gives (process Library.small 0 false p.output) k' p' k₃ ∧ p'.output = p.output := by
  let ok (p : Processed) : Bool := (p.resolution.citations.all fun e =>
      (outcome (e.source.cite e.form e.pincite none) Desk.bare).1.toOption.all fun bare =>
        square.Balanced bare && !occursIn bare && !bare.head?.any isMark) &&
    p.document.notes.all fun n => !Segment.seam false n.segments
  obtain ⟨p, k', hp, hok⟩ := exists_gives_that (p := ok) (s := Desk.bare)
    (x := process Library.small 0 false Text.resolvedOnce) (by decide +kernel)
  simp only [ok, Bool.and_eq_true, List.all_eq_true, Bool.not_eq_true'] at hok
  obtain ⟨hcites, hseams⟩ := hok
  have hb : ∀ e ∈ p.resolution.citations, ∀ bare,
      (outcome (e.source.cite e.form e.pincite none) Desk.bare).1 = .ok bare →
        square.Balanced bare ∧ occursIn bare = false ∧ bare.head?.any isMark = false := by
    intro e he bare hbare
    have := hcites e he
    rw [hbare] at this
    simpa [Except.toOption, and_assoc] using this
  have hk : Desk.bare.journals.Serves _ _ := Journals.ofTables_serves [] []
  obtain ⟨hiff, hagain⟩ := process_again hk hp hb
  exact ⟨p, k', hp, hiff.mp hseams, hagain hseams k'⟩

end Footcite
