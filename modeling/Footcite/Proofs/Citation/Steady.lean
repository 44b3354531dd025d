import Footcite.Citation.Basic
import Footcite.Proofs.Desk

/-!
# Citations are steady

Whoever writes a citation does no more at the desk than to ask for the abbreviation of a journal
(`Source.cite_asking`). So the text of a citation depends on the source, the form, the pincite, the parenthetical and the
tables of journals, and not on what was cited before: `Source.cite_steady`. The journals come in with the name of a
periodical only (`Source.periodical_asking`).
-/

namespace Footcite.Source

open Editing

variable {shown : Int → Prop}

/-! ## Parts of citations -/

theorem shortName_asking (s : Source) : Asking shown s.shortName := by
  unfold shortName
  cases nonEmpty s.shortTitle with
  | some t => exact (Asking.pure t).bind fun _ => .pure _
  | none => exact (Asking.note (.noShortTitle s.id) trivial).bind fun _ => (Asking.liftM _).bind fun _ => .pure _

theorem hereinafterNote_asking (s : Source) : Asking shown s.hereinafterNote :=
  s.shortName_asking.bind fun _ => .pure _

/-- The name of a periodical is what the journals are asked for. -/
theorem periodical_asking (s : Source) (short : Option Text) : Asking shown (s.periodical short) :=
  (Asking.liftM _).bind fun name => (Asking.abbreviate name short).bind fun _ => .pure _

/-! ## Full citations -/

theorem fullBook_asking (s : Source) (b : Book) : Asking shown (s.fullBook b) :=
  (Asking.liftM _).bind fun _ => (Asking.liftM _).bind fun _ => .pure _

theorem fullChapter_asking (s : Source) (c : Chapter) : Asking shown (s.fullChapter c) :=
  (Asking.liftM _).bind fun _ => (Asking.liftM _).bind fun _ => (Asking.liftM _).bind fun _ => .pure _

theorem fullArticle_asking (s : Source) (a : Article) : Asking shown (s.fullArticle a) := by
  unfold fullArticle
  refine (Asking.liftM _).bind fun title => (Asking.liftM _).bind fun page => ?_
  refine (s.periodical_asking _).bind fun journal => ?_
  split
  · exact (Asking.liftM _).bind fun _ => .pure _
  · exact .pure _

theorem fullManuscript_asking (s : Source) (m : Manuscript) : Asking shown (s.fullManuscript m) := by
  unfold fullManuscript
  refine (Asking.liftM _).bind fun title => ?_
  cases nonEmpty m.container with
  | some _ =>
    refine (s.periodical_asking _).bind fun journal => (Asking.pure _).bind fun place => ?_
    cases m.pinBasis <;> cases nonEmpty m.page <;> exact .pure _
  | none =>
    refine (Asking.pure _).bind fun place => ?_
    cases m.pinBasis <;> cases nonEmpty m.page <;> exact .pure _

theorem putTogether_asking (s : Source) (hereinafter : Bool) (pincite : Option Text) (parts : FullParts) :
    Asking shown (s.putTogether hereinafter pincite parts) := by
  unfold putTogether
  cases hereinafter with
  | true => exact s.hereinafterNote_asking.bind fun _ => .pure _
  | false => exact (Asking.pure _).bind fun _ => .pure _

theorem full_asking (s : Source) (hereinafter : Bool) (pincite : Option Text) :
    Asking shown (s.full hereinafter pincite) := by
  unfold full
  cases s.work with
  | book b => exact (s.fullBook_asking b).bind fun _ => s.putTogether_asking _ _ _
  | chapter c => exact (s.fullChapter_asking c).bind fun _ => s.putTogether_asking _ _ _
  | article a => exact (s.fullArticle_asking a).bind fun _ => s.putTogether_asking _ _ _
  | manuscript m => exact (s.fullManuscript_asking m).bind fun _ => s.putTogether_asking _ _ _
  | case c => exact .liftM _

/-! ## Short citations -/

theorem shortCase_asking (s : Source) (pincite : Option Text) : Asking shown (s.shortCase pincite) :=
  (Asking.liftM _).bind fun _ => (Asking.liftM _).bind fun _ => (Asking.liftM _).bind fun _ =>
    s.shortName_asking.bind fun _ => .pure _

theorem shortHead_asking (s : Source) (hereinafter : Bool) : Asking shown (s.shortHead hereinafter) := by
  unfold shortHead
  simp only
  split
  · exact s.shortName_asking
  · split
    · exact s.shortName_asking.bind fun _ => .pure _
    · exact .pure _

theorem short_asking (s : Source) (note : Int) (hereinafter : Bool) (pincite : Option Text) :
    Asking shown (s.short note hereinafter pincite) := by
  unfold short
  split
  · exact s.shortCase_asking pincite
  · exact (s.shortHead_asking hereinafter).bind fun _ => (Asking.liftM _).bind fun _ => .pure _

/-! ## All forms -/

theorem inForm_asking (s : Source) (form : Form) (pincite : Option Text) :
    Asking shown (s.inForm form pincite) := by
  unfold inForm
  split
  · exact s.full_asking _ pincite
  · exact s.short_asking _ _ pincite
  · exact .pure _
  · exact .liftM _
  · exact s.shortCase_asking pincite
  · exact .throw _
  · exact .throw _

theorem cite_asking (s : Source) (form : Form) (pincite parenthetical : Option Text) :
    Asking shown (s.cite form pincite parenthetical) :=
  Asking.map _ ((Asking.liftM _).bind fun pin => (s.inForm_asking form pin).bind fun _ => .pure _)

/-- **A citation does not depend on what was cited before.** -/
theorem cite_steady {user bundled : Table Text} (s : Source) (form : Form) (pincite parenthetical : Option Text) :
    Steady user bundled (s.cite form pincite parenthetical) := (s.cite_asking form pincite parenthetical).steady

end Footcite.Source
