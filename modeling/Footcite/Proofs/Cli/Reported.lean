import Footcite.Proofs.Cli.Escapes

/-!
# Failures that the user is told of

A library is not loaded, or a document not worked through, for a reason that the user is told, or because a number stands
in the way: one in the date of an item, the edition of a source, or the number of a note that is too long. Where the work
of a run fails (`Options.Fails`) for a reason that is told, the run says so in one line and ends with status two, and
nothing but the log has been written; for another reason it ends without a word (`Session.runIn_of_fails`). All that may
end a run without a word is listed (`failures_told`, `Options.Escapes`), and it does occur, since what looks like a digit
need not have a value, and a number need not be finite (`failures_untold`).
-/

namespace Footcite

/-! ## Work that fails in a run -/

namespace Options

/-- The options ask for work on a document with a library. -/
structure Cites (o : Options) (input library : Text) : Prop where
  noStarter : nonEmpty o.newUserJournals = none
  unchecked : o.checkLibrary = false
  input : nonEmpty o.input = some input
  library : nonEmpty o.library = some library

/-- **A run comes to its library**: the log is set up, the result may be written, and the document is read. -/
structure Opens (o : Options) (home : Option Text) (tree : FileTree) (stdin input t : Text) (s : Session) : Prop where
  layout : o.summary ≠ none
  log : Gives (Running.openLog o) { tree, home } () s
  guarded : Gives (Running.guardInput o input (o.outputPath? home)) s () s
  text : Gives (Running.readDocument input stdin) s t s

/-- **The work of a run fails**, and leaves this session. The text stands at the front of the line about it. -/
inductive Fails (o : Options) (home : Option Text) (tree : FileTree) (stdin : Text) : Text → Failure → Session → Prop
  /-- A library is to be checked, and cannot be read. -/
  | checked {t : Text} {s : Session} {f : Failure} : nonEmpty o.newUserJournals = none → o.checkLibrary = true →
      (nonEmpty o.library).or (nonEmpty o.input) = some t → Gives (Running.openLog o) { tree, home } () s →
      Csl.checkFile s.tree (s.path t) = .error f → Fails o home tree stdin [] f s
  | library {input library t : Text} {s s' : Session} {f : Failure} : o.Cites input library →
      o.Opens home tree stdin input t s → Gives (Running.logging (Csl.load s.tree (s.path library))) s (.error f) s' →
      Fails o home tree stdin "error: " f s'
  | journals {input library t name : Text} {s s₁ s' : Session} {sources : Library} {f : Failure} :
      o.Cites input library → o.Opens home tree stdin input t s → Gives (Running.loadLibrary library) s sources s₁ →
      nonEmpty o.userJournals = some name →
      Gives (Running.logging (JournalTable.load s₁.tree (s₁.path name))) s₁ (.error f) s' →
      Fails o home tree stdin "error: " f s'
  | document {input library t : Text} {s s₁ s₂ s' : Session} {sources : Library} {user : Table Text} {offset : Int}
      {f : Failure} : o.Cites input library → o.Opens home tree stdin input t s →
      Gives (Running.loadLibrary library) s sources s₁ → Gives (Running.loadJournals o) s₁ user s₂ →
      Running.offsetFor o t = .ok offset →
      Gives (Running.editing (Journals.ofTables user listedJournals) (process sources offset o.smallCaps t)) s₂
        (.error f) s' → Fails o home tree stdin "error: " f s'

end Options

namespace Running

variable {α : Type} {o : Options} {home : Option Text} {tree : FileTree} {stdin lead : Text} {s s' : Session}
  {f : Failure}

/-- The session with a line more beside the result. -/
def saying (s : Session) (line : Text) : Session := { s with remarks := s.remarks ++ line ++ ['\n'] }

/-- How a run ends by a failure: with status two if it is told. -/
def ending (f : Failure) : Ending := if f.told.reported then .status 2 else .failure f.told

/-- What a run says of a failure. -/
def telling (lead : Text) (f : Failure) (s : Session) : Session :=
  if f.told.reported then saying s (lead ++ f.message) else s

theorem fail_stops : Stops (fail lead f : Running α) s (ending f) (telling lead f s) := by
  unfold fail ending telling
  split <;> rfl

/-- Work that is reported on ends the run by its failure. -/
theorem reporting_stops {work : Running (Except Failure α)} (h : Gives work s (.error f) s') :
    Stops (reporting work) s (ending f) (telling "error: " f s') := h.stops fail_stops

theorem reporting_logging_stops {work : Session → Logging α} (h : Gives (logging (work s)) s (.error f) s') :
    Stops (reporting do logging (work (← get))) s (ending f) (telling "error: " f s') :=
  reporting_stops (gives_get_bind.mpr h)

/-- A run that comes to its library stops where it stops from there. -/
theorem citeDocument_stops {input library t : Text} {e : Ending} (h : o.Opens home tree stdin input t s)
    (hrest : ∀ {layout}, Stops (do
      let sources ← loadLibrary library
      let user ← loadJournals o
      let offset ← orFail (offsetFor o t)
      let result ← reporting <|
        editing (Journals.ofTables user listedJournals) (process sources offset o.smallCaps t)
      deliver (o.outputPath? home) result.output
      showSummary layout result.resolution
      writeReport o input library result.resolution) s e s') :
    Stops (citeDocument o input library stdin) s e s' := by
  obtain ⟨hs, -⟩ := logs_of_openLog h.log
  obtain ⟨layout, hlayout⟩ := Option.ne_none_iff_exists'.mp h.layout
  have hsummary : Gives (summaryLayout o) s layout s := by
    rw [summaryLayout, hlayout]
    exact gives_pure.mpr ⟨rfl, rfl⟩
  refine hsummary.stops (Gives.stops (gives_get.mpr ⟨rfl, rfl⟩) ?_)
  rw [show (nonEmpty o.output).map s.path = o.outputPath? home from congrArg (Option.map · _) (funext hs.path_eq)]
  exact h.guarded.stops (h.text.stops hrest)

/-- A run that is to work on a document does so. -/
theorem perform_stops {input library t : Text} {e : Ending} (hcites : o.Cites input library)
    (h : o.Opens home tree stdin input t s) (hrest : Stops (citeDocument o input library stdin) s e s') :
    Stops (perform o stdin) { tree, home } e s' := by
  refine h.log.stops ?_
  rw [hcites.noStarter, hcites.unchecked, hcites.input, hcites.library]
  exact hrest

end Running

namespace Options.Fails

open Running

variable {o : Options} {home : Option Text} {tree : FileTree} {stdin lead : Text} {s : Session} {f : Failure}

/-- **A run whose work fails** ends by the failure. -/
theorem stops (h : o.Fails home tree stdin lead f s) :
    Stops (perform o stdin) { tree, home } (ending f) (telling lead f s) := by
  cases h with
  | checked hstarter hcheck ht hopen hfail =>
    refine hopen.stops ?_
    rw [hstarter, hcheck]
    unfold reviewLibrary
    rw [ht]
    refine Gives.stops (gives_get.mpr ⟨rfl, rfl⟩) ?_
    rw [hfail]
    exact fail_stops
  | library hcites hopens hload =>
    exact perform_stops hcites hopens (citeDocument_stops hopens (Stops.bind (reporting_logging_stops hload) _))
  | journals hcites hopens hlibrary hname hload =>
    refine perform_stops hcites hopens (citeDocument_stops hopens (hlibrary.stops (Stops.bind ?_ _)))
    rw [loadJournals, hname]
    exact reporting_logging_stops hload
  | document hcites hopens hlibrary hjournals hoffset hwork =>
    refine perform_stops hcites hopens (citeDocument_stops hopens (hlibrary.stops (hjournals.stops ?_)))
    exact Gives.stops (gives_orFail.mpr ⟨hoffset, rfl⟩) (Stops.bind (reporting_stops hwork) _)

/-- Up to the failure only the log has been written to, and nothing has been said. -/
theorem logs (h : o.Fails home tree stdin lead f s) : s.Logs o home tree ∧ s.Silent := by
  have hlasting := Session.Lasting.and (@Session.Logs.lasting o home tree) Session.Silent.lasting
  cases h with
  | checked _ _ _ hopen _ => exact logs_of_openLog hopen
  | library _ hopens hload => exact (logging_keeps hlasting _).gives hload (logs_of_openLog hopens.log)
  | journals _ hopens hlibrary _ hload =>
    have hs := (gives_loadLibrary hlibrary).2 hlasting (logs_of_openLog hopens.log)
    exact (logging_keeps hlasting _).gives hload hs
  | document _ hopens hlibrary hjournals _ hwork =>
    have hs := (gives_loadLibrary hlibrary).2 hlasting (logs_of_openLog hopens.log)
    exact (editing_keeps hlasting _ _).gives hwork (gives_loadJournals hjournals hlasting hs)

end Options.Fails

/-- A failure is told if no number in its message is too long. -/
theorem Failure.told_reported_iff {f : Failure} :
    f.told.reported = true ↔ f.reported = true ∧ ∀ n ∈ f.numbers, Numeral.fits n = true := by
  unfold told
  split
  · next hfits => exact ⟨fun h => ⟨h, List.all_eq_true.mp hfits⟩, And.left⟩
  · next hlong => exact ⟨fun h => (by cases h), fun h => absurd (List.all_eq_true.mpr h.2) hlong⟩

/-- **What a run comes to whose work fails**: if the user is told, one line with the message and status two, and nothing
else; otherwise the failure. -/
theorem Session.runIn_of_fails {home : Option Text} {arguments : List Text} {tree : FileTree} {stdin lead : Text}
    {o : Options} {f : Failure} {s : Session} (hread : Options.read arguments = .ok o)
    (h : o.Fails home tree stdin lead f s) :
    (f.told.reported = true → ∃ s', Session.runIn home arguments tree stdin = (.status 2, s') ∧
      s'.remarks = lead ++ f.message ++ ['\n'] ∧ s'.printed = [] ∧ s'.displays = [] ∧ o.Logged home tree s'.tree) ∧
    (f.told.reported = false → (Session.runIn home arguments tree stdin).1 = .failure f.told) := by
  obtain ⟨hlogs, hsilent⟩ := h.logs
  have hstops : Stops (Running.program arguments stdin) { tree, home } (Running.ending f)
      (Running.telling lead f s) := by
    rw [Running.program, hread]
    exact h.stops
  rw [runIn_eq, hstops]
  unfold Running.ending Running.telling
  constructor
  · intro htold
    rw [if_pos htold, if_pos htold]
    refine ⟨_, rfl, ?_, hsilent.printed, hsilent.displays, hlogs.tree⟩
    rw [Running.saying, hsilent.remarks]
    rfl
  · intro htold
    rw [if_neg (Bool.eq_false_iff.mp htold)]

/-! ## What is told, and what is not -/

/-- **The user is told of what fails**, unless a number or a text stands in the way. A value with numbers that can be
written, as every value is that is read, is no library for a reason that is told, or because an item with an id has a
number in its date that cannot be read. Work on a document with a library that was loaded fails for a reason that is
told, or for the number of a note that is too long, or for the edition of a source.

Where the work of a run fails for a reason that is told, and the message names no number that is too long, the run ends
with status two and has said one line and nothing else; where it is not told the run ends by the failure. And a run that
ends by a failure does so for one of the reasons of `Options.Escapes`. -/
theorem failures_told (origin : Text) (v : Json) (home : Option Text) (arguments : List Text) (tree : FileTree)
    (stdin : Text) :
    (∀ log e, v.writable = true → (outcome (Csl.library origin v) log).1 = .error e →
      (∃ fault, e = .unloadable origin fault) ∨ ∃ item ∈ Csl.items v, item.id?.isSome = true ∧ item.Unreadable e) ∧
    (∀ t, Json.read t = .ok v → v.writable = true) ∧
    (∀ log library log', Gives (Csl.library origin v) log library log' → ∀ offset smallCaps t k e,
      (outcome (process library offset smallCaps t) k).1 = .error e → e.Foreseen library (t.ShowsNote offset)) ∧
    (∀ o lead e s, Options.read arguments = .ok o → o.Fails home tree stdin lead e s →
      (e.reported = true → (∀ n ∈ e.numbers, Numeral.fits n = true) →
        ∃ s', Session.runIn home arguments tree stdin = (.status 2, s') ∧ s'.remarks = lead ++ e.message ++ ['\n'] ∧
          s'.printed = [] ∧ s'.displays = [] ∧ o.Logged home tree s'.tree) ∧
      (e.reported = false ∨ (∃ n ∈ e.numbers, Numeral.fits n = false) →
        (Session.runIn home arguments tree stdin).1 = .failure e.told)) ∧
    ∀ e, (Session.runIn home arguments tree stdin).1 = .failure e →
      ∃ o, Options.read arguments = .ok o ∧ o.Escapes home tree stdin e := by
  refine ⟨fun log e _ h => Csl.library_fails h, fun t h => Json.writable_of_read h,
    fun log library log' h offset smallCaps t k e he => ?_, fun o lead e s hread hfails => ?_, fun e h => ?_⟩
  · exact process_fails (Csl.library_keyed h) offset smallCaps t k e he
  · obtain ⟨htold, huntold⟩ := Session.runIn_of_fails hread hfails
    refine ⟨fun hreported hfits => htold (Failure.told_reported_iff.mpr ⟨hreported, hfits⟩), fun h => huntold ?_⟩
    rw [Bool.eq_false_iff, Ne, Failure.told_reported_iff]
    rintro ⟨hreported, hfits⟩
    rcases h with h | ⟨n, hn, hlong⟩
    · rw [h] at hreported
      cases hreported
    · rw [hfits n hn] at hlong
      cases hlong
  · exact Session.escapes_of_runIn h

/-- A book in an edition. -/
def Csl.aBook (edition : Text) : Item :=
  [("id", .string "x"), ("type", .string "book"), ("title", .string "T"), ("edition", .string edition)]

/-- A library "l" of one book. -/
def FileTree.ofBook (edition : Text) : FileTree :=
  [("l", .file (Utf8.encode (Json.pretty (.array [.object (Csl.aBook edition)]))))]

/-- The document from standard input, with the library "l". -/
def Options.withLibrary : Options := { input := some ['-'], library := some ['l'] }

/-- A library with two items of one id is refused; a source that the library does not have is told of in a line; and a
run whose source is in an edition that is no numeral ends without a word. -/
theorem failures_told_in_line :
    (∃ fault, (outcome (Csl.library "l" (.array [.object (Csl.aBook "2"), .object (Csl.aBook "3")])) []).1 =
      .error (.unloadable "l" fault)) ∧
    (∃ s', Session.runIn none ["-", "l"] (FileTree.ofBook "2") "^[See [@x] and [@y].]" = (.status 2, s') ∧
      s'.remarks = "error: Footnote 1: no source with id 'y' in the library\n" ∧ s'.printed = []) ∧
    ∃ o, Options.read ["-", "l"] = .ok o ∧ o.Escapes none (FileTree.ofBook "²") "^[[@x]]" .badNumeral := by
  refine ⟨?_, ?_, ?_⟩
  · have htwice : (outcome (Csl.library "l" (.array [.object (Csl.aBook "2"), .object (Csl.aBook "3")])) []).1 =
        .error (.unloadable "l" (.duplicateId "x")) := Except.eq_error_of_map (f := fun _ => ()) (by decide +kernel)
    rcases (failures_told "l" _ none [] [] []).1 [] _ (by decide +kernel) htwice with ⟨fault, he⟩ | ⟨item, -, -, hitem⟩
    · exact ⟨fault, htwice.trans (congrArg _ he)⟩
    · cases hitem
  · obtain ⟨r, s, hr, hfailed⟩ := exists_gives_that (s := ({ tree := FileTree.ofBook "2" } : Session)) (x := do
      let sources ← Running.loadLibrary ['l']
      let user ← Running.loadJournals Options.withLibrary
      Running.editing (Journals.ofTables user listedJournals)
        (process sources 0 false (Utf8.unifyLines "^[See [@x] and [@y].]")))
      (p := fun r => r.map (fun _ => ()) = .error (.unknownSource "y" 1)) (by decide +kernel)
    simp only [gives_bind] at hr
    obtain ⟨sources, s₁, hlibrary, user, s₂, hjournals, hwork⟩ := hr
    rw [Except.eq_error_of_map (of_decide_eq_true hfailed)] at hwork
    have hopens : Options.withLibrary.Opens none (FileTree.ofBook "2") "^[See [@x] and [@y].]" ['-']
        (Utf8.unifyLines "^[See [@x] and [@y].]") { tree := FileTree.ofBook "2" } :=
      ⟨Option.some_ne_none _, rfl, rfl, rfl⟩
    have hfails := Options.Fails.document ⟨rfl, rfl, rfl, rfl⟩ hopens hlibrary hjournals rfl hwork
    have htold := (failures_told [] .null none ["-", "l"] _ _).2.2.2.1 _ _ _ _ rfl hfails
    obtain ⟨s', hrun, hremarks, hprinted, -⟩ := htold.1 rfl (List.forall_mem_singleton.mpr (by decide))
    exact ⟨s', hrun, hremarks.trans (by decide +kernel), hprinted⟩
  · exact (failures_told [] .null none ["-", "l"] _ "^[[@x]]").2.2.2.2 .badNumeral (by decide +kernel)

/-- A book of the year that its date gives. -/
def Csl.dated (issued : List (Text × Json)) : Item := Table.set (Csl.aBook "2") "issued" (.object issued)

/-- **Digits that are no numeral, and an infinite year**; in a run also bytes that are no UTF-8, and half a character. -/
theorem failures_untold :
    (outcome (Csl.library "l" (.array [.object (Csl.dated [
      ("date-parts", .array [.array [.float (.infinite false)]])])])) []).1 = .error .notFinite ∧
    (outcome (Csl.library "l" (.array [.object (Csl.dated [("raw", .string "²²²²")])])) []).1 = .error .badNumeral ∧
    (∃ library log', Gives (Csl.library "l" (.array [.object (Csl.aBook "²")])) [] library log' ∧
      (outcome (process library 0 false "^[[@x]]") Desk.bare).1 = .error .badNumeral) ∧
    (Session.run ["-", "l"] (FileTree.ofBook "²") "^[[@x]]").1 = .failure .badNumeral ∧
    (Session.run ["-", "l"] [("l", .file [0xff])] "^[[@x]]").1 = .failure .notUtf8 ∧
    (Session.run ["-", "l"] [("l", .file (Utf8.encode
      "[\x7b\"id\": \"x\", \"type\": \"book\", \"title\": \"\\ud800\"\x7d]"))] "^[[@x]]").1 =
        .failure .halfCharacter := by
  refine ⟨?_, ?_, ?_, ?_, ?_, ?_⟩
  · exact Except.eq_error_of_map (f := fun _ => ()) (by decide +kernel)
  · exact Except.eq_error_of_map (f := fun _ => ()) (by decide +kernel)
  · obtain ⟨library, log', hlibrary, hends⟩ := exists_gives_that
      (x := Csl.library "l" (.array [.object (Csl.aBook "²")])) (s := [])
      (p := fun library => ((outcome (process library 0 false "^[[@x]]") Desk.bare).1.map fun _ => ()) =
        .error .badNumeral) (by decide +kernel)
    exact ⟨library, log', hlibrary, Except.eq_error_of_map (of_decide_eq_true hends)⟩
  · decide +kernel
  · decide +kernel
  · decide +kernel

end Footcite
