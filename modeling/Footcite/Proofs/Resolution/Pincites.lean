import Footcite.Proofs.Citation.Pinned
import Footcite.Proofs.Resolution.FirstWalk
import Footcite.Proofs.Resolution.Idem

/-!
# Pincites are cleaned once and for all

A pincite is cleaned where its mention is read and again where the citation is written. The second time finds nothing
more to clean (`Note.pincite_cleaned`): what is left of a pincite that was found in a note is clean, so the ledger
records and compares, and the citation prints, at first and when it is settled, the same pincite (`Draft.Prints`). It is
left out only by an *id.* for a place that was cited just before.
-/

namespace Footcite

open Pincite

/-- **The citation prints a pincite**: the clause that its form has for it stands in the text, before the parenthetical,
and what is around the clause would be the same for any other pincite. -/
structure Draft.Prints (d : Draft) (q : Text) : Prop where
  clause : ∃ before after k k', d.text = before ++ d.source.pinClause d.form q ++ after ++
      Styled.markdown (Source.parenthesis d.parenthetical) ∧
    ∀ q', ∃ spans, Gives (d.source.inForm d.form (some q')) k spans k' ∧
      spans.markdown = before ++ d.source.pinClause d.form q' ++ after
  /-- Only an *id.* that leaves a repeated pincite out does not show it. -/
  shown : (∀ capitalized, d.form ≠ .id capitalized true) → q <:+: d.text

/-- The "at" that is written before a pincite is the one that cleaning takes away. -/
theorem Pincite.Cleaned.clean_withAt {q : Text} (h : Cleaned q) (id : Text) :
    Pincite.clean id (some (withAt q)) = .ok (some q) := by
  unfold withAt
  split
  · have hat : IsLeadingAt ("at".toList ++ [' ']) :=
      .written (isAt_of_lower (by decide)) (List.cons_ne_nil ' ' []) (by decide)
    exact h.clean_led hat id
  · exact h.clean id

section

variable {library : Library} {l l' : Ledger} {k k' : Desk} {x : Site} {d e : Draft} {q : Text}

/-- Where there is nothing to clean, a citation prints its pincite. -/
theorem Draft.Prints.of_cite (hclean : Pincite.clean d.source.id (some q) = .ok (some q))
    (h : Gives (d.source.cite d.form (some q) d.parenthetical) k d.text k') : d.Prints q := by
  obtain ⟨pin, spans, hpin, hspans, htext⟩ := Source.gives_cite.mp h
  rw [hclean, Except.ok.injEq] at hpin
  subst hpin
  obtain ⟨before, after, hpins⟩ := d.source.inForm_pins d.form _ _ _ _ hspans
  obtain ⟨spans', hspans', hmarkdown⟩ := hpins q
  obtain rfl : spans = spans' := (gives_unique hspans hspans').1
  have htext : d.text = before ++ d.source.pinClause d.form q ++ after ++
      Styled.markdown (Source.parenthesis d.parenthetical) := by
    rw [htext, Styled.markdown_append, hmarkdown]
  refine ⟨⟨before, after, k, k', htext, hpins⟩, fun hform => ?_⟩
  rw [htext, List.append_assoc]
  exact (d.source.infix_pinClause hform q).trans (List.infix_append before _ _)

/-- A mention is cited with its clean pincite. -/
theorem Cites.prints (hc : Cites library l k x d l' k') (hq : Cleaned q) (hpin : d.pincite = some q) : d.Prints q := by
  obtain ⟨k₁, htext, -⟩ := hc.written
  exact .of_cite (hq.clean d.source.id) (hpin ▸ htext)

/-- A settled citation keeps the pincite, and prints it. -/
theorem Draft.Prints.settle (hd : d.Prints q) (hq : Cleaned q) (hpin : d.pincite = some q)
    (h : Gives (d.settle l) k e k') : e.pincite = some q ∧ e.Prints q := by
  obtain ⟨hsettles, hsame | hwritten⟩ := Draft.settle_gives h
  · obtain ⟨rfl, -⟩ := hsame
    exact ⟨hpin, hd⟩
  · have hpin' : e.pincite = some q := by
      rw [hsettles.same]
      exact hpin
    exact ⟨hpin', .of_cite (hq.clean e.source.id) (hpin' ▸ hwritten)⟩

end

/-- **The pincites of a note are cleaned once and for all.** Each is a bare "at" and is refused, or it is clean but for an
"at" with blanks after it, which cleaning takes away: there is then nothing more to clean, and the "at" that a citation
writes before the pincite, unless a section or paragraph sign begins it, is not taken for a part of it either. The
mention is cited with this pincite: it is compared with that of the citation before, the ledger records it, and the text
prints it, also when the citation is settled. Where the text leaves it out, it is that of the citation before. -/
theorem Note.pincite_cleaned {position number : Int} {body : Text} {n : Note} (h : read position number body = .ok n)
    {m : Mention} (hm : m ∈ n.mentions) {p : Text} (hp : m.pincite = some p) :
    (p.lower = "at" ∧ ∀ id, clean id m.pincite = .error (.emptyPincite p id none)) ∨
    ∃ at_ q, p = at_ ++ q ∧ IsLeadingAt at_ ∧ Cleaned q ∧
      withAt q = (if q.head? = some '§' ∨ q.head? = some '¶' then q else "at ".toList ++ q) ∧
      (∀ id, clean id m.pincite = .ok (some q) ∧ clean id (some q) = .ok (some q) ∧
        clean id (some (withAt q)) = .ok (some q)) ∧
      ∀ library l parenthetical before k d l' k', Gives (Draft.write library n l m parenthetical before) k (d, l') k' →
        d.pincite = some q ∧ d.Prints q ∧
        (∃ opens l₁, l.choose d.source n.position n.number (some q) opens = .ok (d.form, l₁)) ∧
        (∀ capitalized, d.form = .id capitalized true → l.last.bind LastCitation.pincite = some q) ∧
        l'.last.bind LastCitation.pincite = some q ∧
        ∀ last k₁ e k₂, Gives (d.settle last) k₁ e k₂ → e.pincite = some q ∧ e.Prints q := by
  have hfound : Found (some p) := hp ▸ found_of_read h m hm
  rw [hp]
  rcases hfound.cleaned with hat | ⟨at_, q, rfl, hat, hq⟩
  · exact .inl ⟨hat.lower, hat.clean⟩
  · refine .inr ⟨at_, q, rfl, hat, hq, withAt_eq q,
      fun id => ⟨hq.clean_led hat id, hq.clean id, hq.clean_withAt id⟩, ?_⟩
    intro library l parenthetical before k d l' k' hwrite
    have hc := Draft.write_gives hwrite
    have hpin : d.pincite = some q := by
      have hcleaned := hc.pincite
      rw [hp, hq.clean_led hat, Except.ok.injEq] at hcleaned
      exact hcleaned.symm
    have hprints := hc.prints hq hpin
    obtain ⟨opens, l₁, hchoose, rfl⟩ := hc.chosen
    rw [hpin] at hchoose
    have hrepeated (capitalized : Bool) (hform : d.form = .id capitalized true) :
        l.last.bind LastCitation.pincite = some q := by
      have hsame := (Ledger.choice_of_choose hchoose).repeated hform
      simp only [Ledger.repeatsPincite, Option.isSome_some, Bool.true_and] at hsame
      exact (of_decide_eq_true hsame.symm).symm
    exact ⟨hpin, hprints, ⟨opens, l₁, hchoose⟩, hrepeated, hpin, fun last k₁ e k₂ hs => hprints.settle hq hpin hs⟩

/-- A mention in the parenthetical of another, with an "at" in capitals and blanks after it, which its citation shows
without the "at". -/
theorem Note.pincite_cleaned_nested : ∃ n m, read 1 1 "See [@a] 3 (quoting [@b] AT \t § 5 n.3), [@c] At." = .ok n ∧
    m ∈ n.mentions ∧ m.pincite = some ("AT \t § 5 n.3" : String).toList ∧
    (∀ id, Pincite.clean id m.pincite = .ok (some "§ 5 n.3") ∧
      Pincite.clean id (some "§ 5 n.3") = .ok (some "§ 5 n.3")) ∧
    ∃ d l' k', Gives (Draft.write Library.small n {} m none []) Desk.bare (d, l') k' ∧
      d.pincite = some "§ 5 n.3" ∧ ("§ 5 n.3" : String).toList <:+: d.text := by
  let p : Text := "AT \t § 5 n.3"
  obtain ⟨n, hn, hmention⟩ := Except.exists_ok_that
    (x := read 1 1 "See [@a] 3 (quoting [@b] AT \t § 5 n.3), [@c] At.")
    (p := fun n => n.mentions[1]?.any fun m => m.pincite = some p &&
      (outcome (Draft.write Library.small n {} m none []) Desk.bare).1.toOption.any fun r => r.1.form = .full false)
    (by decide +kernel)
  obtain ⟨m, hm, hok⟩ := (Option.any_eq_true _ _).mp hmention
  obtain ⟨hp, hwritten⟩ := Bool.and_eq_true_iff.mp hok
  obtain ⟨⟨d, l'⟩, k', hwrite, hform⟩ := exists_gives_that hwritten
  have hm := List.mem_of_getElem? hm
  have hp : m.pincite = some p := of_decide_eq_true hp
  refine ⟨n, m, hn, hm, hp, ?_⟩
  rcases pincite_cleaned hn hm hp with ⟨hat, -⟩ | ⟨_, q, -, -, -, -, hclean, hcite⟩
  · exact absurd hat (by decide)
  · have hq : Pincite.clean [] (some p) = .ok (some "§ 5 n.3") := by decide +kernel
    rw [← hp, (hclean []).1, Except.ok.injEq, Option.some.injEq] at hq
    subst hq
    obtain ⟨hpin, hprints, -⟩ := hcite _ _ _ _ _ _ _ _ hwrite
    have hform : d.form = .full false := of_decide_eq_true hform
    have hfull (capitalized : Bool) : d.form ≠ .id capitalized true := by
      rw [hform]
      exact Form.noConfusion
    exact ⟨fun id => ⟨(hclean id).1, (hclean id).2.1⟩, d, l', k', hwrite, hpin, hprints.shown hfull⟩

end Footcite
