import Footcite.Proofs.Citation.SmallCaps
import Footcite.Proofs.Citation.Texts
import Footcite.Proofs.Journal.Named

/-!
# Small caps in citations

A citation is written so that small caps find its bold spans again, whatever its form: the texts of a source have no
asterisks of their own, italics are set off by other characters, and plain text comes before and after what is bold
(`Source.loose_citeStyled`). So small caps restyle exactly the bold spans of a citation (`Source.cite_smallCaps`), as
long as the spans of the titles in italics stand apart and nothing bold is empty.
-/

namespace Footcite

open Text Styled

/-! ## Sources -/

/-- The titles that are set in italics. -/
def Source.italicTitles (s : Source) : List Text :=
  match s.work with
  | .book _ | .case _ => []
  | .chapter _ | .article _ | .manuscript _ => s.titles

/-- **A source from which citations can be set in small caps**: its texts are on one line and have no asterisks, and in
the titles in italics the marks alternate and the spans stand apart. -/
structure Source.Settable (s : Source) : Prop where
  texts : ∀ t ∈ s.texts, Unstarred t
  alternate : ∀ t ∈ s.italicTitles, marksAlternate false t = true
  apart : ∀ t ∈ s.italicTitles, SpansApart t

namespace Source

variable {s : Source} {k k' : Desk} {pincite parenthetical : Option Text} {hereinafter : Bool} {note : Int}
  {parts : FullParts} {spans : Styled} {t : Text}

/-! ## Parts of citations -/

/-- A field that is shown as it is is one of the texts. -/
theorem mem_texts_of_field {f : Field} (hf : f = .container → s.work.kind = .chapter) (h : s.field f = some t) :
    t ∈ s.texts := by
  cases f with
  | title => simp [texts, titles, show s.title = some t from h]
  | _ =>
    cases hw : s.work <;> simp_all [field, volume, texts, Work.texts, Work.kind]

theorem Settable.given (hs : s.Settable) {f : Field} (hf : f = .container → s.work.kind = .chapter)
    (h : s.given f = .ok t) : Unstarred t := hs.texts t (mem_texts_of_field hf (field_of_given h))

theorem Settable.names (hs : s.Settable) : ∀ t ∈ s.authors.flatMap Name.texts, Unstarred t := fun t ht =>
  hs.texts t (List.mem_append_left _ (List.mem_append_right _ ht))

theorem Settable.ofWork (hs : s.Settable) {w : Work} (hw : s.work = w) : ∀ t ∈ w.texts, Unstarred t := fun t ht =>
  hs.texts t (List.mem_append_right _ (hw ▸ ht))

theorem tidy_emphasised (h : Unstarred t) : Tidy (s.emphasised t) := by
  unfold emphasised
  split
  · exact tidy_bold h
  · exact tidy_plain h

theorem tidy_leadingAuthors (hs : s.Settable) : Tidy s.leadingAuthors := by
  unfold leadingAuthors
  split
  · exact tidy_nil
  · exact (tidy_emphasised (Name.unstarred_long hs.names)).append (tidy_plain (by decide))

theorem tidy_shortAuthors (hs : s.Settable) : Tidy s.shortAuthors := by
  unfold shortAuthors
  extract_lets names
  split
  · exact tidy_nil
  · exact tidy_emphasised (Name.unstarred_short hs.names)

theorem tidy_volumeLead (hs : s.Settable) : Tidy s.volumeLead := by
  unfold volumeLead
  split
  · next v hv =>
    have hfield : s.field .volume = some v := (nonEmpty_eq_some.mp hv).1
    have hvolume : Unstarred v := hs.texts v (mem_texts_of_field (fun h => by cases h) hfield)
    exact tidy_plain (hvolume.append (by decide))
  · exact tidy_nil

/-- In a title in italics asterisks stand apart. -/
theorem stars_italicTitle (hs : s.Settable) (hne : t ≠ []) (ht : t ∈ s.italicTitles) :
    (stars false t.reverseItalics).isSome = true := by
  have hmem : t ∈ s.texts := by
    unfold italicTitles at ht
    split at ht
    · cases ht
    · cases ht
    · exact List.mem_append_left _ (List.mem_append_left _ ht)
    · exact List.mem_append_left _ (List.mem_append_left _ ht)
    · exact List.mem_append_left _ (List.mem_append_left _ ht)
  have hstars : '*' ∉ t := fun hstar => (hs.texts t hmem '*' hstar).1 rfl
  exact stars_reverseItalics hne hstars (hs.alternate t ht) (hs.apart t ht)

/-- What is given is not empty. -/
theorem ne_nil_of_given {f : Field} (h : s.given f = .ok t) : t ≠ [] := by
  rintro rfl
  unfold given at h
  split at h
  · next u _ =>
    split at h
    · cases h
    · next hblank =>
      cases h
      exact hblank rfl
  · cases h

theorem mem_titles_of_given (h : s.given .title = .ok t) : t ∈ s.titles := by
  have hfield : s.title = some t := field_of_given h
  simp [titles, hfield]

theorem mem_italicTitles (hs : s.work.kind ≠ .book) (hc : s.work.kind ≠ .case) (h : t ∈ s.titles) :
    t ∈ s.italicTitles := by
  unfold italicTitles
  cases hw : s.work with
  | book b => exact absurd (congrArg Work.kind hw) hs
  | case c => exact absurd (congrArg Work.kind hw) hc
  | chapter _ | article _ | manuscript _ => exact h

/-- A title in italics with an asterisk at each end. -/
theorem loose_italic (h : Unstarred t) (hne : t ≠ []) : Loose (plain t.italic) := by
  refine loose_plain ?_
  have hstars : stars false t.italic = (stars true t).bind (stars · ['*']) := stars_append true t ['*']
  obtain ⟨c, u, rfl⟩ := List.exists_cons_of_ne_nil hne
  rw [hstars, fresh_of_unstarred hne h]
  rfl

/-- After the short title plain text must come: it may end in an asterisk. -/
theorem loose_shortName (hs : s.Settable) (h : Gives s.shortName k spans k') : Loose spans := by
  unfold shortName at h
  extract_lets name at h
  have hname {title : Text} {k : Desk} (htitle : title ∈ s.titles) (hne : title ≠ [])
      (h : Gives (name title) k spans k') : Loose spans := by
    obtain ⟨rfl, -⟩ := gives_pure.mp h
    have hplain : Unstarred title := hs.texts title (List.mem_append_left _ (List.mem_append_left _ htitle))
    cases hw : s.work with
    | book _ => exact (tidy_bold hplain).loose
    | case _ => exact loose_italic hplain hne
    | chapter _ | article _ | manuscript _ =>
      exact loose_plain (stars_italicTitle hs hne (by rw [italicTitles, hw]; exact htitle))
  cases hshort : nonEmpty s.shortTitle with
  | some title =>
    simp only [hshort, gives_bind, gives_pure] at h
    obtain ⟨_, _, ⟨rfl, -⟩, h⟩ := h
    obtain ⟨hfield, hne⟩ := nonEmpty_eq_some.mp hshort
    exact hname (by simp [titles, hfield]) hne h
  | none =>
    simp only [hshort, gives_bind, gives_liftM] at h
    obtain ⟨_, _, -, title, _, ⟨hgiven, -⟩, h⟩ := h
    exact hname (mem_titles_of_given hgiven) (ne_nil_of_given hgiven) h

theorem tidy_hereinafterNote (hs : s.Settable) (h : Gives s.hereinafterNote k spans k') : Tidy spans := by
  simp only [hereinafterNote, gives_bind, gives_pure] at h
  obtain ⟨title, _, htitle, rfl, -⟩ := h
  have hopen : Tidy (plain " [hereinafter ") := tidy_plain (by decide)
  have hauthors : Tidy (if s.shortAuthors.isEmpty then [] else s.shortAuthors ++ plain ", ") := by
    split
    · exact tidy_nil
    · exact (tidy_shortAuthors hs).append (tidy_plain (by decide))
  exact ((hopen.append hauthors).append_loose (loose_shortName hs htitle)).append_plain (by decide)

/-- **The abbreviation of the periodical**, if a full citation asks for one. -/
def journalText? (s : Source) (journals : Journals) : Option Text :=
  s.journal?.map fun q => (journals.resolve q.name q.override).1.text

/-- The name of a periodical is asked about as a full citation asks for it. -/
theorem tidy_periodical {short : Option Text}
    (hasked : ∀ name, s.field .container = some name → name ≠ [] → s.journal? = some ⟨name, short⟩)
    (hjournal : ∀ t, s.journalText? k.journals = some t → Unstarred t) (h : Gives (s.periodical short) k spans k') :
    Tidy spans := by
  simp only [periodical, gives_bind, gives_liftM, gives_pure] at h
  obtain ⟨name, _, ⟨hname, rfl⟩, t, _, ht, rfl, -⟩ := h
  obtain ⟨rfl, -⟩ := Editing.gives_abbreviate ht
  refine tidy_bold (hjournal _ ?_)
  rw [journalText?, hasked name (field_of_given hname) (ne_nil_of_given hname), Option.map_some]

/-! ## Full citations -/

/-- Parts of a full citation that can be put together. -/
structure Settled (parts : FullParts) : Prop where
  before : Tidy parts.before
  pinLeft : Unstarred parts.pinLeft
  pinRight : Unstarred parts.pinRight
  after : Unstarred parts.after
  ending : Unstarred parts.ending

theorem fullBook_settled {b : Book} (hs : s.Settable) (hw : s.work = .book b) (h : Gives (s.fullBook b) k parts k') :
    Settled parts := by
  simp only [fullBook, gives_bind, gives_liftM, gives_pure] at h
  obtain ⟨title, _, ⟨htitle, -⟩, after, _, ⟨hafter, -⟩, rfl, -⟩ := h
  have hwork := hs.ofWork hw
  refine ⟨?_, unstarred_space, unstarred_nil, ?_, unstarred_nil⟩
  · exact ((tidy_volumeLead hs).append (tidy_leadingAuthors hs)).append (tidy_bold (hs.given (by simp) htitle))
  · exact unstarred_publication (fun t ht => hwork t (by simp [Work.texts, ht]))
      (fun t ht => hwork t (List.mem_append_right _ ht)) hafter

theorem fullChapter_settled {c : Chapter} (hs : s.Settable) (hw : s.work = .chapter c)
    (h : Gives (s.fullChapter c) k parts k') : Settled parts := by
  unfold fullChapter at h
  obtain ⟨title, _, hlift, h⟩ := gives_bind.mp h
  obtain ⟨htitle, rfl⟩ := gives_liftM.mp hlift
  obtain ⟨container, _, hlift, h⟩ := gives_bind.mp h
  obtain ⟨hcontainer, rfl⟩ := gives_liftM.mp hlift
  extract_lets page at h
  obtain ⟨after, _, hlift, h⟩ := gives_bind.mp h
  obtain ⟨hafter, rfl⟩ := gives_liftM.mp hlift
  obtain ⟨rfl, -⟩ := gives_pure.mp h
  have hwork := hs.ofWork hw
  have hkind : s.work.kind = .chapter := by rw [hw]; rfl
  have hitalic := stars_italicTitle hs (ne_nil_of_given htitle)
    (mem_italicTitles (by simp [hkind]) (by simp [hkind]) (mem_titles_of_given htitle))
  refine ⟨?_, unstarred_comma, unstarred_nil, ?_, unstarred_nil⟩
  · have htitle : Tidy (plain (Text.reverseItalics title ++ ", *in* ")) := tidy_plain_append hitalic (by decide)
    have hpage : Unstarred page := by
      simp only [page]
      split
      · next p hp => exact unstarred_space.append (hwork p (by simp [Work.texts, (nonEmpty_eq_some.mp hp).1]))
      · exact unstarred_nil
    exact ((((tidy_leadingAuthors hs).append htitle).append (tidy_volumeLead hs)).append
      (tidy_bold (hs.given (fun _ => hkind) hcontainer))).append (tidy_plain hpage)
  · exact unstarred_publication (fun t ht => hwork t (by simp [Work.texts, ht]))
      (fun t ht => hwork t (List.mem_append_right _ ht)) hafter

theorem fullArticle_settled {a : Article} (hs : s.Settable) (hw : s.work = .article a)
    (hjournal : ∀ t, s.journalText? k.journals = some t → Unstarred t) (h : Gives (s.fullArticle a) k parts k') :
    Settled parts := by
  unfold fullArticle at h
  obtain ⟨title, _, hlift, h⟩ := gives_bind.mp h
  obtain ⟨htitle, rfl⟩ := gives_liftM.mp hlift
  obtain ⟨page, _, hlift, h⟩ := gives_bind.mp h
  obtain ⟨hpage, rfl⟩ := gives_liftM.mp hlift
  obtain ⟨journal, _, hgives, h⟩ := gives_bind.mp h
  extract_lets lead date at h
  have hkind : s.work.kind = .article := by rw [hw]; rfl
  have hitalic := stars_italicTitle hs (ne_nil_of_given htitle)
    (mem_italicTitles (by simp [hkind]) (by simp [hkind]) (mem_titles_of_given htitle))
  have hlead : Tidy lead :=
    (tidy_leadingAuthors hs).append (tidy_plain_append hitalic (by decide))
  have hpage : Unstarred page := hs.given (by simp) hpage
  have hname : Tidy journal := by
    refine tidy_periodical (fun name hfield hne => ?_) hjournal hgives
    rw [field, hw] at hfield
    simp [journal?, hw, nonEmpty_eq_some.mpr ⟨hfield, hne⟩]
  split at h
  · simp only [gives_bind, gives_liftM, gives_pure] at h
    obtain ⟨volume, _, ⟨hvolume, -⟩, rfl, -⟩ := h
    have hvolume : Unstarred volume := hs.given (by simp) hvolume
    refine ⟨?_, unstarred_comma, unstarred_nil, ?_, unstarred_nil⟩
    · exact ((hlead.append (tidy_plain (hvolume.append unstarred_space))).append hname).append
        (tidy_plain (unstarred_space.append hpage))
    · show Unstarred (if a.numberedByYear then [] else yearParenthesis s.year)
      split
      · exact unstarred_nil
      · exact unstarred_yearParenthesis s.year
  · rw [gives_pure] at h
    obtain ⟨rfl, -⟩ := h
    have hdate : Unstarred date := by
      simp only [date]
      split
      · next d hd =>
        have hwork := hs.ofWork hw
        exact unstarred_comma.append (hwork d (by simp [Work.texts, (nonEmpty_eq_some.mp hd).1]))
      · exact unstarred_comma.append (unstarred_ofInt _)
      · exact unstarred_nil
    have hat : Unstarred ", at " := by decide
    refine ⟨?_, unstarred_comma, unstarred_nil, unstarred_nil, unstarred_nil⟩
    exact (hlead.append hname).append (tidy_plain ((hdate.append hat).append hpage))

/-- The status of a manuscript that begins on no page. -/
theorem fresh_status (forthcoming : Bool) (year : Option Int) :
    Fresh (if forthcoming then
        match year with
        | some y => " (forthcoming " ++ Numeral.ofInt y ++ ")"
        | none => " (forthcoming)"
      else yearParenthesis year ++ " (unpublished manuscript)") := by
  cases forthcoming with
  | true =>
    cases year with
    | some y =>
      have hopen : Fresh " (forthcoming " := by decide
      have hclose : Unstarred ")" := by decide
      exact (hopen.append (unstarred_ofInt y)).append hclose
    | none => exact by decide
  | false =>
    have hstatus : Unstarred " (unpublished manuscript)" := by decide
    exact fresh_of_unstarred (List.append_ne_nil_of_right_ne_nil _ (by decide))
      ((unstarred_yearParenthesis year).append hstatus)

theorem fullManuscript_settled {m : Manuscript} (hs : s.Settable) (hw : s.work = .manuscript m)
    (hjournal : ∀ t, s.journalText? k.journals = some t → Unstarred t) (h : Gives (s.fullManuscript m) k parts k') :
    Settled parts := by
  have hwork := hs.ofWork hw
  have hkind : s.work.kind = .manuscript := by rw [hw]; rfl
  have hpage {page : Text} (h : nonEmpty m.page = some page) : Fresh (" " ++ page) :=
    fresh_of_unstarred (List.cons_ne_nil _ _)
      (unstarred_space.append (hwork page (by simp [Work.texts, (nonEmpty_eq_some.mp h).1])))
  have hpin : Unstarred " (manuscript at " := by decide
  have hclose : Unstarred ")" := by decide
  unfold fullManuscript at h
  obtain ⟨title, _, htitle, h⟩ := gives_bind.mp h
  obtain ⟨hgiven, rfl⟩ := gives_liftM.mp htitle
  have hitalic := stars_italicTitle hs (ne_nil_of_given hgiven)
    (mem_italicTitles (by simp [hkind]) (by simp [hkind]) (mem_titles_of_given hgiven))
  have hlead : Loose (s.leadingAuthors ++ plain (Text.reverseItalics title)) :=
    (tidy_leadingAuthors hs).append_loose (loose_plain hitalic)
  extract_lets ending status rest at h
  have hending : Unstarred ending := by
    simp only [ending]
    split
    · next u hu => exact unstarred_comma.append (hwork u (by simp [Work.texts, (nonEmpty_eq_some.mp hu).1]))
    · exact unstarred_nil
  have hstatus : Fresh status := fresh_status m.forthcoming s.year
  have hrest {place : Styled} {k : Desk}
      (hplace : Loose (s.leadingAuthors ++ plain (Text.reverseItalics title) ++ place))
      (h : Gives (rest place) k parts k') : Settled parts := by
    simp only [rest] at h
    split at h
    · next hp =>
      obtain ⟨rfl, -⟩ := gives_pure.mp h
      exact ⟨hplace.append_plain (hpage hp), unstarred_comma, unstarred_nil, unstarred_yearParenthesis _, hending⟩
    · obtain ⟨rfl, -⟩ := gives_pure.mp h
      exact ⟨hplace.append_plain hstatus, hpin, hclose, unstarred_nil, hending⟩
  cases hcontainer : nonEmpty m.container with
  | some container =>
    simp only [hcontainer, gives_bind, gives_pure] at h
    obtain ⟨journal, _, hgives, _, _, ⟨rfl, -⟩, h⟩ := h
    have hname : Tidy journal := by
      refine tidy_periodical (fun name hfield hne => ?_) hjournal hgives
      rw [field, hw] at hfield
      simp [journal?, hw, nonEmpty_eq_some.mpr ⟨hfield, hne⟩]
    refine hrest ?_ h
    rw [← List.append_assoc, ← List.append_assoc]
    exact (((hlead.append_plain (by decide)).append (tidy_volumeLead hs)).append hname).loose
  | none =>
    simp only [hcontainer, gives_bind, gives_pure] at h
    obtain ⟨_, _, ⟨rfl, -⟩, h⟩ := h
    exact hrest (by rwa [List.append_nil]) h

theorem tidy_putTogether (hs : s.Settable) (hpin : ∀ p, pincite = some p → Unstarred p) (hparts : Settled parts)
    (h : Gives (s.putTogether hereinafter pincite parts) k spans k') : Tidy spans := by
  unfold putTogether at h
  extract_lets pin rest at h
  have hpin : Unstarred pin := by
    simp only [pin]
    cases pincite with
    | some p => exact (hparts.pinLeft.append (hpin p rfl)).append hparts.pinRight
    | none => exact unstarred_nil
  have hafter := hparts.before.append (tidy_plain (hpin.append hparts.after))
  have hrest {shortNote : Styled} {k : Desk} (hnote : Tidy shortNote) (h : Gives (rest shortNote) k spans k') :
      Tidy spans := by
    obtain ⟨rfl, -⟩ := gives_pure.mp h
    exact (hafter.append hnote).append (tidy_plain hparts.ending)
  split at h
  · obtain ⟨shortNote, _, hnote, h⟩ := gives_bind.mp h
    exact hrest (tidy_hereinafterNote hs hnote) h
  · obtain ⟨_, _, hnote, h⟩ := gives_bind.mp h
    obtain ⟨rfl, -⟩ := gives_pure.mp hnote
    exact hrest tidy_nil h

/-- The court and the year of a decision. -/
theorem unstarred_decision {c : Case} (hs : s.Settable) (hw : s.work = .case c) :
    ∀ t ∈ ((nonEmpty c.court).filter (!unnamedCourts.contains ·)).toList ++ (s.year.map Numeral.ofInt).toList,
      Unstarred t := by
  intro t ht
  rcases List.mem_append.mp ht with ht | ht
  · have hcourt := (Option.filter_eq_some_iff.mp (Option.mem_toList.mp ht)).1
    have hwork := hs.ofWork hw
    exact hwork t (by simp [Work.texts, (nonEmpty_eq_some.mp hcourt).1])
  · obtain ⟨y, -, rfl⟩ := Option.map_eq_some_iff.mp (Option.mem_toList.mp ht)
    exact unstarred_ofInt y

theorem tidy_longCase {c : Case} (hs : s.Settable) (hw : s.work = .case c)
    (hpin : ∀ p, pincite = some p → Unstarred p) (h : s.longCase c pincite = .ok spans) : Tidy spans := by
  unfold longCase at h
  obtain ⟨title, htitle, h⟩ := Except.bind_ok h
  obtain ⟨reporter, hreporter, h⟩ := Except.bind_ok h
  obtain ⟨volume, hvolume, h⟩ := Except.bind_ok h
  obtain ⟨page, hpage, h⟩ := Except.bind_ok h
  extract_lets pin court decision parenthesis at h
  obtain rfl := Except.ok.inj h
  have hpin : Unstarred pin := by
    simp only [pin]
    cases pincite with
    | some p => exact unstarred_comma.append (hpin p rfl)
    | none => exact unstarred_nil
  have hparenthesis : Unstarred parenthesis := by
    simp only [parenthesis]
    split
    · exact unstarred_nil
    · exact (Unstarred.join unstarred_space (unstarred_decision hs hw)).inParentheses
  have hname : stars false title.caseTitle = some false := stars_caseTitle (hs.given (by simp) htitle)
  have hvolume : Unstarred volume := hs.given (by simp) hvolume
  have hreporter : Unstarred reporter := hs.given (by simp) hreporter
  have hpage : Unstarred page := hs.given (by simp) hpage
  have hplace := ((hvolume.append unstarred_space).append hreporter).append (unstarred_space.append hpage)
  have hrest := ((unstarred_comma.append hplace).append hpin).append hparenthesis
  have htext := stars_append_unstarred hname hrest
  rw [Tidy, settled_plain]
  simpa only [List.append_assoc] using htext

theorem tidy_full (hs : s.Settable) (hpin : ∀ p, pincite = some p → Unstarred p)
    (hjournal : ∀ t, s.journalText? k.journals = some t → Unstarred t)
    (h : Gives (s.full hereinafter pincite) k spans k') : Tidy spans := by
  unfold full at h
  split at h
  · next hw =>
    obtain ⟨parts, _, hparts, h⟩ := gives_bind.mp h
    exact tidy_putTogether hs hpin (fullBook_settled hs hw hparts) h
  · next hw =>
    obtain ⟨parts, _, hparts, h⟩ := gives_bind.mp h
    exact tidy_putTogether hs hpin (fullChapter_settled hs hw hparts) h
  · next hw =>
    obtain ⟨parts, _, hparts, h⟩ := gives_bind.mp h
    exact tidy_putTogether hs hpin (fullArticle_settled hs hw hjournal hparts) h
  · next hw =>
    obtain ⟨parts, _, hparts, h⟩ := gives_bind.mp h
    exact tidy_putTogether hs hpin (fullManuscript_settled hs hw hjournal hparts) h
  · next hw => exact tidy_longCase hs hw hpin (gives_liftM.mp h).1

/-! ## Short citations -/

theorem tidy_shortCase (hs : s.Settable) (hpin : ∀ p, pincite = some p → Unstarred p)
    (h : Gives (s.shortCase pincite) k spans k') : Tidy spans := by
  unfold shortCase at h
  obtain ⟨reporter, _, hreporter, h⟩ := gives_bind.mp h
  obtain ⟨volume, _, hvolume, h⟩ := gives_bind.mp h
  obtain ⟨page, _, hpage, h⟩ := gives_bind.mp h
  obtain ⟨title, _, htitle, h⟩ := gives_bind.mp h
  extract_lets place at h
  obtain ⟨rfl, -⟩ := gives_pure.mp h
  have hplace : Unstarred place := by
    simp only [place]
    cases pincite with
    | some p => exact Pincite.unstarred_withAt (hpin p rfl)
    | none => exact hs.given (by simp) (gives_liftM.mp hpage).1
  have hvolume : Unstarred volume := hs.given (by simp) (gives_liftM.mp hvolume).1
  have hreporter : Unstarred reporter := hs.given (by simp) (gives_liftM.mp hreporter).1
  have hcomma : Fresh ", " := by decide
  have hrest := (((hcomma.append hvolume).append unstarred_space).append hreporter).append unstarred_space
  exact (loose_shortName hs htitle).append_plain (hrest.append hplace)

theorem loose_shortHead (hs : s.Settable) (h : Gives (s.shortHead hereinafter) k spans k') : Loose spans := by
  unfold shortHead at h
  extract_lets authors at h
  have hauthors : Tidy authors := tidy_shortAuthors hs
  split at h
  · exact loose_shortName hs h
  · split at h
    · obtain ⟨title, _, htitle, h⟩ := gives_bind.mp h
      obtain ⟨rfl, -⟩ := gives_pure.mp h
      exact (hauthors.append (tidy_plain unstarred_comma)).append_loose (loose_shortName hs htitle)
    · obtain ⟨rfl, -⟩ := gives_pure.mp h
      exact hauthors.loose

theorem tidy_short (hs : s.Settable) (hpin : ∀ p, pincite = some p → Unstarred p)
    (h : Gives (s.short note hereinafter pincite) k spans k') : Tidy spans := by
  unfold short at h
  split at h
  · exact tidy_shortCase hs hpin h
  · obtain ⟨head, _, hhead, h⟩ := gives_bind.mp h
    obtain ⟨number, _, hnumber, h⟩ := gives_bind.mp h
    obtain ⟨-, rfl⟩ := Numeral.write_eq_ok.mp (gives_liftM.mp hnumber).1
    extract_lets place at h
    obtain ⟨rfl, -⟩ := gives_pure.mp h
    have hplace : Unstarred place := by
      simp only [place]
      cases pincite with
      | none => exact unstarred_nil
      | some p =>
        have hopen : Unstarred " (manuscript at " := by decide
        have hclose : Unstarred ")" := by decide
        dsimp only
        split
        · exact (hopen.append (hpin p rfl)).append hclose
        · exact unstarred_comma.append (Pincite.unstarred_withAt (hpin p rfl))
    have hsupra : Fresh ", *supra* note " := by decide
    exact (loose_shortHead hs hhead).append_plain ((hsupra.append (unstarred_ofInt note)).append hplace)

theorem loose_idem (capitalized repeated : Bool) (hpin : ∀ p, pincite = some p → Unstarred p) :
    Loose (idem capitalized repeated pincite) := by
  unfold idem
  extract_lets place
  have hplace : Unstarred place := by
    simp only [place]
    cases pincite with
    | none => exact unstarred_nil
    | some p =>
      dsimp only
      split
      · exact unstarred_nil
      · exact unstarred_space.append (Pincite.unstarred_withAt (hpin p rfl))
  have hid : stars false (if capitalized then "*Id.*" else "*id.*").toList = some true := by
    cases capitalized <;> decide
  refine loose_plain ?_
  rw [stars_append, hid, Option.bind_some, stars_of_unstarred hplace]
  rfl

/-! ## Citations -/

theorem loose_inForm (hs : s.Settable) {form : Form} (hpin : ∀ p, pincite = some p → Unstarred p)
    (hjournal : ∀ t, s.journalText? k.journals = some t → Unstarred t)
    (h : Gives (s.inForm form pincite) k spans k') : Loose spans := by
  unfold inForm at h
  split at h
  · exact (tidy_full hs hpin hjournal h).loose
  · exact (tidy_short hs hpin h).loose
  · obtain ⟨rfl, -⟩ := gives_pure.mp h
    exact loose_idem _ _ hpin
  · next hw => exact (tidy_longCase hs hw hpin (gives_liftM.mp h).1).loose
  · exact (tidy_shortCase hs hpin h).loose
  · exact absurd h gives_throw
  · exact absurd h gives_throw

/-- **In a citation asterisks stand apart**, but for those of bold spans. -/
theorem loose_citeStyled (hs : s.Settable) {form : Form} (hpin : ∀ p, pincite = some p → Unstarred p)
    (hparenthetical : ∀ p, parenthetical = some p → Unstarred p)
    (hjournal : ∀ t, s.journalText? k.journals = some t → Unstarred t)
    (h : Gives (s.citeStyled form pincite parenthetical) k spans k') : Loose spans := by
  simp only [citeStyled, gives_bind, gives_liftM, gives_pure] at h
  obtain ⟨pin, _, ⟨hclean, rfl⟩, citation, _, hcitation, rfl, -⟩ := h
  have hcited := loose_inForm hs (fun p hp => Pincite.unstarred_clean hpin hclean hp) hjournal hcitation
  unfold parenthesis
  split
  · next p hp =>
    have hopen : Fresh " (" := by decide
    have hclose : Unstarred ")" := by decide
    have htext := hparenthetical p (nonEmpty_eq_some.mp hp).1
    exact (hcited.append_plain ((hopen.append htext).append hclose)).loose
  · rwa [List.append_nil]

/-- **Small caps restyle exactly the bold spans of a citation.** Its texts, the abbreviation of its periodical, the
pincite and the parenthetical are on one line and have no asterisks, the marks of titles in italics alternate, their
spans stand apart, and nothing bold is empty. Then the citation in Markdown, set in small caps, is the citation whose
bold spans are written in the small-caps style, and it has no double asterisk. -/
theorem cite_smallCaps (s : Source) (form : Form) (pincite parenthetical : Option Text) (k k' : Desk) (spans : Styled)
    (hs : s.Settable) (hpin : ∀ p ∈ pincite, Unstarred p) (hparenthetical : ∀ p ∈ parenthetical, Unstarred p)
    (hjournal : ∀ t ∈ s.journalText? k.journals, Unstarred t)
    (h : Gives (s.citeStyled form pincite parenthetical) k spans k') (hbold : Span.bold [] ∉ spans) :
    Gives (s.cite form pincite parenthetical) k spans.markdown k' ∧
      Text.smallCaps spans.markdown = spans.smallCaps ∧ ¬"**".toList <:+: spans.smallCaps := by
  obtain ⟨b, hsettled⟩ := loose_citeStyled hs hpin hparenthetical hjournal h
  obtain ⟨hcaps, hstars⟩ := smallCaps_markdown hsettled hbold
  exact ⟨gives_map.mpr ⟨spans, h, rfl⟩, hcaps, not_infix_of_stars hstars⟩

/-- An article by two authors with spans in the title and in the short title, cited with a short name for later. -/
theorem cite_smallCaps_article :
    let s : Source := {
      id := "a", title := some "On <i>X</i>: <i>Y </i> now <i>Z</i>", shortTitle := some "<i>X</i> and <i> Y</i>",
      authors := [{ family := some "Doe", given := some "J." }, { literal := some "Body" }], year := some 1999,
      work := .article { container := some "Law  Review", volume := some "12", page := some "1" } }
    let k : Desk := { journals := .ofTables [] [("Law Review", "L. Rev.")] }
    ∃ (spans : Styled) (k' : Desk), Gives (s.cite (.full true) (some "at 5") (some "citing x")) k spans.markdown k' ∧
      Text.smallCaps spans.markdown = spans.smallCaps ∧ ¬"**".toList <:+: spans.smallCaps := by
  intro s k
  have hgives : ((outcome (s.citeStyled (.full true) (some "at 5") (some "citing x")) k).1.toOption.any
      fun spans => decide (Span.bold [] ∉ spans)) = true := by decide +kernel
  obtain ⟨spans, k', h, hbold⟩ := exists_gives_that hgives
  have hs : s.Settable := ⟨by decide +kernel, by decide +kernel, by decide +kernel⟩
  exact ⟨spans, k', cite_smallCaps s (.full true) (some "at 5") (some "citing x") k k' spans hs (by decide) (by decide)
    (by decide +kernel) h (of_decide_eq_true hbold)⟩

/-- **Bold text is mistaken where two spans of a title have but blanks between them**: the marks of the title alternate
and no span is empty, but small caps are set in the text that stands between two of its asterisks and the bold span. -/
theorem restyled_across_spans : ∃ (s : Source) (k k' : Desk) (spans : Styled),
    (∀ t ∈ s.texts, Unstarred t) ∧ (∀ t ∈ s.italicTitles, marksAlternate false t = true ∧ ¬"<i></i>".toList <:+: t) ∧
      Gives (s.citeStyled (.full false) none none) k spans k' ∧ Text.smallCaps spans.markdown ≠ spans.smallCaps := by
  let s : Source := { id := "a", title := some "<i>A</i> <i>B</i>", work := .chapter { container := some "C" } }
  let k : Desk := { journals := .ofTables [] [] }
  have hgives : ((outcome (s.citeStyled (.full false) none none) k).1.toOption.any
      fun spans => decide (Text.smallCaps spans.markdown ≠ spans.smallCaps)) = true := by decide +kernel
  obtain ⟨spans, k', h, hcaps⟩ := exists_gives_that hgives
  exact ⟨s, k, k', spans, by decide +kernel, by decide +kernel, h, of_decide_eq_true hcaps⟩

end Source

end Footcite
