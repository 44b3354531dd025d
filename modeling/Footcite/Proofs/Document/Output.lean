import Footcite.Proofs.Document.Layout
import Footcite.Proofs.Resolution.Brackets
import Footcite.Resolution.Basic

/-!
# The output of a document

The output is the document with its notes written anew: the prose between them is as it was, and the notes that are
found in it are the resolved ones (`process_keeps_layout`). For this the citations have to be balanced; an id, a title
or a pincite with a bracket too many would end its note early or not at all.
-/

namespace Footcite

variable {user bundled : Table Text} {library : Library} {k k₁ k' : Desk}

/-- A citation that is balanced without its parenthetical has the levels of its parenthetical. -/
theorem Draft.Written.level {e : Draft} (hw : e.Written user bundled) (hk : k.journals.Serves user bundled)
    (hb : ∀ bare, (outcome (e.source.cite e.form e.pincite none) k).1 = .ok bare → square.Balanced bare) :
    square.level e.text = square.level (Text.inParentheses e.parenthetical) := by
  obtain ⟨bare, hbare, ht⟩ := Source.cite_eq_ok (hw k hk)
  have hlevel := Brackets.level_eq_self (by decide) ((Brackets.balanced_iff (by decide)).mp (hb bare hbare))
  rw [ht, Brackets.level_append_of_eq hlevel, Source.level_parenthesis]

/-- **The text of a resolved note is balanced**, if its citations are without their parentheticals. -/
theorem Resolution.balanced_texts {notes : List Note} {r : Resolution} (hk : k.journals.Serves user bundled)
    (hk₁ : k₁.journals.Serves user bundled)
    (hn : ∀ n ∈ notes, ∃ body, square.Balanced body ∧ ∃ position number, Note.read position number body = .ok n)
    (hr : Gives (ofNotes library notes) k₁ r k')
    (hb : ∀ e ∈ r.citations, ∀ bare, (outcome (e.source.cite e.form e.pincite none) k).1 = .ok bare →
      square.Balanced bare) : ∀ t ∈ r.texts, square.Balanced t := by
  obtain ⟨-, hnotes, hbecome⟩ := settled_become hr
  intro t ht
  obtain ⟨s, hs, rfl⟩ := List.mem_map.mp ht
  obtain ⟨body, hbody, position, number, hread⟩ := hn s.note (hnotes ▸ List.mem_map_of_mem hs)
  have hcites (d : Draft) (hd : .cite d ∈ s.pieces) :
      square.level d.text = square.level (Text.inParentheses d.parenthetical) := by
    have hmem : d ∈ r.citations :=
      List.mem_flatMap.mpr ⟨s, hs, List.mem_filterMap.mpr ⟨.cite d, hd, rfl⟩⟩
    exact (text_eq hk₁ hr d hmem).level hk (hb d hmem)
  rw [Brackets.balanced_iff (by decide)] at hbody ⊢
  rw [← hbody]
  exact congrFun (Note.level_join hread (hbecome s hs) hcites) 0

/-- **The structure of notes is kept.** The text of a document is its prose with its notes in between; the output is the
same with the resolved texts for the bodies, and when its notes are looked for in turn, these are what is found, with
the same prose between them. -/
theorem process_keeps_layout {offset : Int} {t : Text} {p : Processed} (hk : k.journals.Serves user bundled)
    (hp : Gives (process library offset false t) k p k')
    (hb : ∀ e ∈ p.resolution.citations, ∀ bare, (outcome (e.source.cite e.form e.pincite none) k).1 = .ok bare →
      square.Balanced bare) :
    (Layout.ofText t).text = t ∧ (Layout.ofText t).Closed ∧
      p.resolution.texts.length = (Layout.ofText t).bodies.length ∧
      p.output = ((Layout.ofText t).withBodies p.resolution.texts).text ∧
      Layout.ofText p.output = (Layout.ofText t).withBodies p.resolution.texts ∧
      (Layout.ofText p.output).bodies = p.resolution.texts := by
  obtain ⟨d, r, hd, hr, rfl⟩ := gives_process.mp hp
  obtain ⟨hclosed, hlength, hnotes, hfill⟩ := Document.ofLayout_bodies hd
  have hcount : r.texts.length = (Layout.ofText t).bodies.length := by
    have hsettled := congrArg List.length (Resolution.settled_become hr).2.1
    rw [← hlength, ← hsettled]
    simp [Resolution.texts]
  have hbalanced : ∀ b ∈ r.texts, square.Balanced b := by
    have hk₁ : ({ k with log := k.log ++ [.foundNotes d.placed.length] } : Desk).journals.Serves user bundled := hk
    refine Resolution.balanced_texts hk hk₁ (fun n hn => ?_) hr hb
    obtain ⟨body, hbody, hread⟩ := hnotes n hn
    exact ⟨body, Layout.balanced_of_mem_bodies hbody, hread⟩
  have hfound : Layout.ofText (d.fill r.texts) = (Layout.ofText t).withBodies r.texts := by
    rw [hfill r.texts hcount]
    exact Layout.scan_withBodies hclosed hbalanced hcount
  exact ⟨Layout.text_scan false t, hclosed, hcount, hfill r.texts hcount, hfound,
    (congrArg Layout.bodies hfound).trans (Layout.bodies_withBodies hcount)⟩

/-- Citations with brackets of their own, one inside the parenthetical of the other, and brackets in the prose of a
note; a caret that is escaped, and one that no bracket follows. -/
theorem process_keeps_layout_brackets : ∃ p k',
    Gives (process Library.small 0 false
      "One^[[?x] See [@a] 3 (citing [@b] [sic]), [c].] \\^[two]^[[@a] ( ).]^[As in note [?x], [@c] (1[2]).]^")
      Desk.bare p k' ∧
    (∀ e ∈ p.resolution.citations, ∀ bare,
      (outcome (e.source.cite e.form e.pincite none) Desk.bare).1 = .ok bare → square.Balanced bare) ∧
    (Layout.ofText p.output).bodies = [
      "See **Ash**, **A** 3 [hereinafter **Ash**, **A**] (citing **ash**, **B** [hereinafter **ash**, **B**] [sic]), [c].",
      "**Ash**, **A**, *supra* note 1.", "As in note 1, C, 1 R. 2 (1[2])."].map String.toList := by
  let ok (p : Processed) : Bool := (p.resolution.citations.all fun e =>
      (outcome (e.source.cite e.form e.pincite none) Desk.bare).1.toOption.all fun bare => square.Balanced bare) &&
    p.resolution.texts = [
      "See **Ash**, **A** 3 [hereinafter **Ash**, **A**] (citing **ash**, **B** [hereinafter **ash**, **B**] [sic]), [c].",
      "**Ash**, **A**, *supra* note 1.", "As in note 1, C, 1 R. 2 (1[2])."].map String.toList
  obtain ⟨p, k', hp, hok⟩ := exists_gives_that (p := ok) (s := Desk.bare) (x := process Library.small 0 false
    "One^[[?x] See [@a] 3 (citing [@b] [sic]), [c].] \\^[two]^[[@a] ( ).]^[As in note [?x], [@c] (1[2]).]^")
    (by decide +kernel)
  simp only [ok, Bool.and_eq_true, List.all_eq_true, decide_eq_true_eq] at hok
  obtain ⟨hcites, htexts⟩ := hok
  have hbalanced : ∀ e ∈ p.resolution.citations, ∀ bare,
      (outcome (e.source.cite e.form e.pincite none) Desk.bare).1 = .ok bare → square.Balanced bare := by
    intro e he bare hbare
    have := hcites e he
    rw [hbare] at this
    simpa [Except.toOption] using this
  have hk : Desk.bare.journals.Serves _ _ := Journals.ofTables_serves [] []
  exact ⟨p, k', hp, hbalanced, (process_keeps_layout hk hp hbalanced).2.2.2.2.2.trans htexts⟩

end Footcite
