import Footcite.Proofs.Cli.Logged

/-!
# The files that a run leaves alone

A run writes to three places that the command line names: to the result, to the report, and to the file for the log. The
starter table of journals is written only where there is no file yet. So what is true of a file stays true of it,
however the run ends, if the writings that lead to its place keep it true (`Options.Spares`, `Session.runIn_spares`).

Hence a file that none of the three leads to is as it was (`Session.runIn_untouched`). The document is guarded against
the result, but neither against the report nor against the log (`Session.runIn_document`).
-/

namespace Footcite

/-- An option leads to the place of a path. -/
def Path.LedToBy (i : Path) (home option : Option Text) : Prop :=
  ∃ t ∈ nonEmpty option, ((Path.ofText t).within home).place = i.place

instance (i : Path) (home option : Option Text) : Decidable (i.LedToBy home option) :=
  inferInstanceAs (Decidable (∃ t ∈ nonEmpty option, ((Path.ofText t).within home).place = i.place))

namespace Options

/-- The file at a path is the document, and is guarded against the result. -/
structure Guards (o : Options) (home : Option Text) (i : Path) : Prop where
  kept : o.forceOverwrite = false
  document : ∃ input, o.input = some input ∧ input ≠ "-" ∧ ((Path.ofText input).within home).place = i.place

/-- **What is written to the place of a path** keeps something true of the bytes there. -/
structure Spares (o : Options) (home : Option Text) (i : Path) (Q : List UInt8 → Prop) : Prop where
  logged : i.LedToBy home o.debugLog → ∀ bytes line, Q bytes → Q (bytes ++ Utf8.encode line)
  reported : i.LedToBy home o.json → ∀ v : Json, Q (Utf8.encode (v.pretty ++ ['\n']))
  delivered : i.LedToBy home o.output → o.Guards home i ∨ ∀ result, Q (Utf8.encode result)

end Options

/-- At a path there is a file, of whose bytes something is true; the log keeps it true. -/
structure Session.Holds (home : Option Text) (i : Path) (name : Text) (Q : List UInt8 → Prop) (s : Session) : Prop where
  home : s.home = home
  file : ∃ bytes, s.tree.find i = .file name bytes ∧ Q bytes
  log : ∀ p, s.debugLog = some p →
    p.place.Plain ∧ (p.place = i.place → ∀ bytes line, Q bytes → Q (bytes ++ Utf8.encode line))

/-- What is true of a file lasts. -/
theorem Session.Holds.lasting {home : Option Text} {i : Path} {name : Text} {Q : List UInt8 → Prop}
    (hi : i.place.Plain) : Session.Lasting (Session.Holds home i name Q) where
  event _ h := ⟨h.home, h.file, h.log⟩
  line h hp ht := by
    obtain ⟨hplain, happend⟩ := h.log _ hp
    obtain ⟨bytes, hfile, hQ⟩ := h.file
    refine ⟨h.home, ⟨_, FileTree.find_change hplain hi hfile ht, ?_⟩, h.log⟩
    split
    · next hplace => exact happend hplace bytes _ hQ
    · exact hQ

theorem Session.plain_path (s : Session) (t : Text) : (s.path t).place.Plain := (Path.plain t s.home).place

namespace Running

/-! ## The parts of a run -/

section Holds

variable {α : Type} {home : Option Text} {i : Path} {name : Text} {Q : List UInt8 → Prop} {o : Options}

theorem remark_keeps (line : Text) : Keeps (Session.Holds home i name Q) (remark line) :=
  Keeps.modify fun _ h => ⟨h.home, h.file, h.log⟩

theorem usage_keeps (f : UsageFault) : Keeps (Session.Holds home i name Q) (usage f : Running α) :=
  (remark_keeps _).bind fun _ => .throw _

theorem fail_keeps (lead : Text) (f : Failure) : Keeps (Session.Holds home i name Q) (fail lead f : Running α) := by
  unfold fail
  split
  · exact (remark_keeps _).bind fun _ => .throw _
  · exact .throw _

/-- **A writing keeps** what is true of a file that it does not reach, and of the one that it reaches what it keeps. -/
theorem changeFiles_keeps {p : Path} {f : List UInt8 → List UInt8} (hp : p.place.Plain) (hi : i.place.Plain)
    (hf : p.place = i.place → ∀ bytes, Q bytes → Q (f bytes)) :
    Keeps (Session.Holds home i name Q) (changeFiles fun tree => tree.change p f) := by
  refine .get_bind fun s hs => ?_
  dsimp only
  cases hchange : s.tree.change p f with
  | error e => exact .throw _
  | ok tree =>
    obtain ⟨bytes, hfile, hQ⟩ := hs.file
    refine Keeps.modify fun s' hs' => ⟨hs'.home, ⟨_, FileTree.find_change hp hi hfile hchange, ?_⟩, hs'.log⟩
    split
    · next hplace => exact hf hplace bytes hQ
    · exact hQ

theorem reporting_keeps {work : Running (Except Failure α)} (h : Keeps (Session.Holds home i name Q) work) :
    Keeps (Session.Holds home i name Q) (reporting work) := by
  refine h.bind fun r => ?_
  cases r with
  | ok a => exact .pure a
  | error f => exact fail_keeps _ f

theorem loadLibrary_keeps (hi : i.place.Plain) (t : Text) : Keeps (Session.Holds home i name Q) (loadLibrary t) :=
  reporting_keeps (.get_bind fun _ _ => logging_keeps (Session.Holds.lasting hi) _)

theorem loadJournals_keeps (hi : i.place.Plain) : Keeps (Session.Holds home i name Q) (loadJournals o) := by
  unfold loadJournals
  split
  · exact .pure _
  · exact reporting_keeps (.get_bind fun _ _ => logging_keeps (Session.Holds.lasting hi) _)

theorem openLog_keeps (hi : i.place.Plain) (ho : o.Spares home i Q) :
    Keeps (Session.Holds home i name Q) (openLog o) := by
  unfold openLog
  refine (Keeps.modify fun _ h => ⟨h.home, h.file, h.log⟩).bind fun _ => ?_
  split
  · exact .pure _
  · next t ht =>
    refine .get_bind fun s hs => ?_
    have hplain : (s.path t).canonical.place.Plain := by
      rw [Path.place_canonical]
      exact s.plain_path t
    have hkept (hplace : (s.path t).canonical.place = i.place) :
        ∀ bytes line, Q bytes → Q (bytes ++ Utf8.encode line) := by
      rw [Path.place_canonical, Session.path, hs.home] at hplace
      exact ho.logged ⟨t, ht, hplace⟩
    refine (changeFiles_keeps hplain hi fun hplace bytes => hkept hplace bytes []).bind fun _ => ?_
    refine Keeps.modify fun s' hs' => ⟨hs'.home, hs'.file, fun p hp => ?_⟩
    cases hp
    exact ⟨hplain, hkept⟩

/-- The starter table is written over no file. -/
theorem startJournals_keeps (hi : i.place.Plain) (t : Text) :
    Keeps (Session.Holds home i name Q) (startJournals t) := by
  unfold startJournals
  refine .get_bind fun s hs => ?_
  split
  · next tree hwrite =>
    obtain ⟨bytes, hfile, hQ⟩ := hs.file
    obtain ⟨there, hthere, hwrite⟩ := Except.bind_ok hwrite
    cases there with
    | true => cases hwrite
    | false =>
      have hfound := FileTree.find_change (s.plain_path t) hi hfile hwrite
      rw [if_neg (FileTree.place_ne_of_not_has hfile hthere hwrite)] at hfound
      exact (Keeps.modify fun s' hs' => ⟨hs'.home, ⟨bytes, hfound, hQ⟩, hs'.log⟩).bind fun _ => remark_keeps _
  · split
    · exact .throw _
    · exact .throw _

theorem reviewLibrary_keeps : Keeps (Session.Holds home i name Q) (reviewLibrary o) := by
  unfold reviewLibrary
  split
  · exact usage_keeps _
  · refine .get_bind fun s _ => ?_
    split
    · exact fail_keeps _ _
    · next issues _ =>
      extract_lets close
      have hclose (u : Unit) : Keeps (Session.Holds home i name Q) (close u) := .throw _
      split
      · exact (Keeps.modify fun _ h => ⟨h.home, h.file, h.log⟩).bind hclose
      · exact (Keeps.forM (fun issue => remark_keeps _) _).bind hclose

/-- **A result that passes the guard** does not lead to the document, unless that is asked for. -/
theorem place_ne_of_guardInput {input : Text} {p : Path} {s s' : Session} (hforce : o.forceOverwrite = false)
    (hdash : input ≠ "-") (h : Gives (guardInput o input (some p)) s () s') : p.place ≠ (s.path input).place := by
  intro hplace
  rw [guardInput, gives_get_bind] at h
  simp only [if_neg hdash] at h
  split at h
  · exact gives_throw h
  · simp only [hplace, hforce, decide_true, Bool.not_false, Bool.and_self, if_true] at h
    exact gives_throw h

theorem deliver_keeps (hi : i.place.Plain) {output : Option Path} (result : Text)
    (h : ∀ p, output = some p → p.place.Plain ∧ (p.place = i.place → Q (Utf8.encode result))) :
    Keeps (Session.Holds home i name Q) (deliver output result) := by
  cases output with
  | none => exact Keeps.modify fun _ h => ⟨h.home, h.file, h.log⟩
  | some p =>
    obtain ⟨hplain, hQ⟩ := h p rfl
    refine (changeFiles_keeps hplain hi fun hplace _ _ => hQ hplace).bind fun _ => ?_
    exact emit_keeps (Session.Holds.lasting hi) _

theorem showSummary_keeps (layout : SummaryLayout) (r : Resolution) :
    Keeps (Session.Holds home i name Q) (showSummary layout r) := by
  cases layout with
  | none => exact .pure _
  | plain => exact (orFail_keeps _).bind fun lines => Keeps.forM remark_keeps lines
  | rich => exact (orFail_keeps _).bind fun displays => Keeps.modify fun _ h => ⟨h.home, h.file, h.log⟩

theorem writeReport_keeps (hi : i.place.Plain) (ho : o.Spares home i Q) (input library : Text) (r : Resolution) :
    Keeps (Session.Holds home i name Q) (writeReport o input library r) := by
  unfold writeReport
  split
  · exact .pure _
  · next t ht =>
    refine (orFail_keeps _).bind fun v => .get_bind fun s hs => ?_
    refine changeFiles_keeps (s.plain_path t) hi fun hplace _ _ => ?_
    rw [Session.path, hs.home] at hplace
    exact ho.reported ⟨t, ht, hplace⟩ v

theorem citeDocument_keeps (hi : i.place.Plain) (ho : o.Spares home i Q) {input : Text} (hinput : o.input = some input)
    (library stdin : Text) : Keeps (Session.Holds home i name Q) (citeDocument o input library stdin) := by
  refine (summaryLayout_keeps o).bind fun layout => .get_bind fun s hs => ?_
  refine (guardInput_keeps o input _).bind_gives fun {s₁ _ _} hs₁ hguard => ?_
  -- Past the guard, the result leads to the document only if that was asked for.
  have hresult (result : Text) (p : Path) (hp : (nonEmpty o.output).map s.path = some p) :
      p.place.Plain ∧ (p.place = i.place → Q (Utf8.encode result)) := by
    obtain ⟨t, ht, rfl⟩ := Option.map_eq_some_iff.mp hp
    refine ⟨s.plain_path t, fun hplace => ?_⟩
    rcases ho.delivered ⟨t, ht, hs.home ▸ hplace⟩ with ⟨hforce, input', hinput', hdash, hdocument⟩ | hQ
    · cases hinput.symm.trans hinput'
      rw [hp] at hguard
      refine absurd ?_ (place_ne_of_guardInput hforce hdash hguard)
      rw [hplace, Session.path, hs₁.home, hdocument]
    · exact hQ result
  refine (readDocument_keeps input stdin).bind fun text => ?_
  refine (loadLibrary_keeps hi library).bind fun sources => (loadJournals_keeps hi).bind fun user => ?_
  refine (orFail_keeps _).bind fun offset => ?_
  refine (reporting_keeps (editing_keeps (Session.Holds.lasting hi) _ _)).bind fun result => ?_
  refine (deliver_keeps hi _ (hresult _)).bind fun _ => ?_
  exact (showSummary_keeps _ _).bind fun _ => writeReport_keeps hi ho _ _ _

theorem perform_keeps (hi : i.place.Plain) (ho : o.Spares home i Q) (stdin : Text) :
    Keeps (Session.Holds home i name Q) (perform o stdin) := by
  unfold perform
  refine (openLog_keeps hi ho).bind fun _ => ?_
  split
  · exact startJournals_keeps hi _
  · split
    · exact reviewLibrary_keeps
    · split
      · next input library hinput _ => exact citeDocument_keeps hi ho (Option.filter_eq_some_iff.mp hinput).1 _ _
      · exact usage_keeps _

end Holds

end Running

/-! ## Runs -/

variable {home : Option Text} {arguments : List Text} {tree : FileTree} {o : Options} {i : Path}
  {name : Text} {bytes : List UInt8}

/-- What a run leaves behind is what the program leaves. -/
theorem Session.runIn_snd (home : Option Text) (arguments : List Text) (tree : FileTree) (stdin : Text) :
    (Session.runIn home arguments tree stdin).2 =
      (outcome (Running.program arguments stdin) { tree, home }).2 := by
  rw [runIn_eq]
  rcases outcome (Running.program arguments stdin) { tree, home } with ⟨e | _, s⟩ <;> rfl

/-- A command line that cannot be read changes no file. -/
theorem Session.runIn_unread (stdin : Text) {e : Interruption} (h : Options.read arguments = .error e) :
    (Session.runIn home arguments tree stdin).2.tree = tree := by
  rw [runIn_snd, Running.program, h]
  cases e <;> rfl

/-- **What is true of a file** is true of it after a run whose writings keep it true. -/
theorem Session.runIn_spares (stdin : Text) {Q : List UInt8 → Prop} (hread : Options.read arguments = .ok o)
    (hi : i.place.Plain) (ho : o.Spares home i Q) (hfile : tree.find i = .file name bytes) (hQ : Q bytes) :
    ∃ left, (Session.runIn home arguments tree stdin).2.tree.find i = .file name left ∧ Q left := by
  have hbegin : Session.Holds home i name Q { tree, home } := ⟨rfl, ⟨bytes, hfile, hQ⟩, fun p hp => by cases hp⟩
  rw [runIn_snd, Running.program, hread]
  exact (Running.perform_keeps hi ho stdin _ hbegin).file

/-- **A file that no option leads to** that writes is as it was. -/
theorem Session.runIn_untouched (stdin : Text) (hread : Options.read arguments = .ok o) (hi : i.place.Plain)
    (houtput : ¬i.LedToBy home o.output) (hjson : ¬i.LedToBy home o.json) (hlog : ¬i.LedToBy home o.debugLog)
    (hfile : tree.find i = .file name bytes) :
    (Session.runIn home arguments tree stdin).2.tree.find i = .file name bytes := by
  have ho : o.Spares home i (· = bytes) :=
    ⟨fun h => absurd h hlog, fun h => absurd h hjson, fun h => absurd h houtput⟩
  obtain ⟨left, hleft, rfl⟩ := Session.runIn_spares stdin hread hi ho hfile rfl
  exact hleft

/-! ## The document -/

/-- **What a run leaves of the document** that is guarded against the result, by where the report and the log lead. -/
structure Options.Leaves (o : Options) (home : Option Text) (i : Path) (bytes left : List UInt8) : Prop where
  same : ¬i.LedToBy home o.json → ¬i.LedToBy home o.debugLog → left = bytes
  /-- The log adds text at the end. -/
  added : ¬i.LedToBy home o.json → ∃ t, left = bytes ++ Utf8.encode t
  /-- The report takes the place of the document. -/
  replaced : ¬i.LedToBy home o.debugLog → left = bytes ∨ ∃ v : Json, left = Utf8.encode (v.pretty ++ ['\n'])

theorem Options.Guards.spares (h : o.Guards home i) (bytes : List UInt8) : o.Spares home i (o.Leaves home i bytes) where
  logged hlog left line hleft := by
    refine ⟨fun _ h => absurd hlog h, fun hjson => ?_, fun h => absurd hlog h⟩
    obtain ⟨t, rfl⟩ := hleft.added hjson
    exact ⟨t ++ line, by simp [Utf8.encode]⟩
  reported hjson v := ⟨fun h => absurd hjson h, fun h => absurd hjson h, fun _ => .inr ⟨v, rfl⟩⟩
  delivered _ := .inl h

/-- **The document of a run** is not written over by the result unless that is asked for, however the two are spelled,
and however the run ends: it is as it was if neither the report nor the log leads to it. A command line that cannot be
read changes no file. -/
theorem Session.runIn_document (home : Option Text) (arguments : List Text) (tree : FileTree) (stdin : Text) :
    (∀ e, Options.read arguments = .error e → (Session.runIn home arguments tree stdin).2.tree = tree) ∧
    ∀ (o : Options) (input name : Text) (bytes : List UInt8), Options.read arguments = .ok o →
      o.forceOverwrite = false → o.input = some input → input ≠ "-" →
      tree.find ((Path.ofText input).within home) = .file name bytes →
      ∃ left, (Session.runIn home arguments tree stdin).2.tree.find ((Path.ofText input).within home) =
          .file name left ∧ o.Leaves home ((Path.ofText input).within home) bytes left := by
  refine ⟨fun e he => runIn_unread stdin he, fun o input name bytes hread hforce hinput hdash hfile => ?_⟩
  have hguards : o.Guards home ((Path.ofText input).within home) := ⟨hforce, input, hinput, hdash, rfl⟩
  exact runIn_spares stdin hread (Path.plain input home).place (hguards.spares bytes) hfile
    ⟨fun _ _ => rfl, fun _ => ⟨[], by simp [Utf8.encode]⟩, fun _ => .inl rfl⟩

/-- A document and a library without entries. -/
def FileTree.textAndLibrary : FileTree :=
  [("in.md", .file (Utf8.encode "Text.")), ("lib.json", .file (Utf8.encode "[]"))]

/-- A result, a report and a log beside the document, each in a spelling of its own. -/
theorem Session.runIn_document_beside :
    (∃ o, Options.read ["./in.md", "lib.json", "/w/out.md", "--json", "r.json", "--debug-log", "../w/d.log"] = .ok o ∧
      o.forceOverwrite = false ∧ o.input = some "./in.md") ∧
    (Session.runIn (some "/w") ["./in.md", "lib.json", "/w/out.md", "--json", "r.json", "--debug-log", "../w/d.log"]
      FileTree.textAndLibrary []).2.tree.find ((Path.ofText "./in.md").within (some "/w")) =
        .file "in.md" (Utf8.encode "Text.") := by
  obtain ⟨o, hread, ho⟩ := Except.exists_ok_that
    (x := Options.read ["./in.md", "lib.json", "/w/out.md", "--json", "r.json", "--debug-log", "../w/d.log"])
    (p := fun o => !o.forceOverwrite && o.input = some "./in.md" &&
      !decide (((Path.ofText "./in.md").within (some "/w")).LedToBy (some "/w") o.json) &&
      !decide (((Path.ofText "./in.md").within (some "/w")).LedToBy (some "/w") o.debugLog)) (by decide +kernel)
  simp only [Bool.and_eq_true, Bool.not_eq_true', decide_eq_true_eq, decide_eq_false_iff_not] at ho
  obtain ⟨⟨⟨hforce, hinput⟩, hjson⟩, hlog⟩ := ho
  obtain ⟨left, hleft, hleaves⟩ := (Session.runIn_document (some "/w") _ FileTree.textAndLibrary []).2 o "./in.md"
    "in.md" (Utf8.encode "Text.") hread hforce hinput (by decide) (by rfl)
  obtain rfl := hleaves.same hjson hlog
  exact ⟨⟨o, hread, hforce, hinput⟩, hleft⟩

/-- The arguments name the text as the document, not to be written over, and another text is there after the run. -/
def Session.AltersText (arguments : List Text) : Prop :=
  (∃ o, Options.read arguments = .ok o ∧ o.forceOverwrite = false ∧ o.input = some "in.md") ∧
  ∃ left, (Session.run arguments FileTree.textAndLibrary []).2.tree.find (Path.ofText "in.md") = .file "in.md" left ∧
    left ≠ Utf8.encode "Text."

/-- The text is altered if the options and the file after the run are seen to be so. -/
theorem Session.altersText_of {arguments : List Text}
    (hread : (Options.read arguments).toOption.any (fun o =>
      !o.forceOverwrite && decide (o.input = some "in.md".toList)) = true)
    (hwritten : ((Session.run arguments FileTree.textAndLibrary []).2.tree.find (Path.ofText "in.md")).spot.any
      (fun (name, bytes) => decide (name = "in.md".toList) &&
        bytes.any fun left => decide (left ≠ Utf8.encode "Text.")) = true) : Session.AltersText arguments := by
  obtain ⟨o, ho, hkept⟩ := Except.exists_ok_that hread
  simp only [Bool.and_eq_true, Bool.not_eq_true', decide_eq_true_eq] at hkept
  obtain ⟨⟨name, bytes⟩, hspot, hleft⟩ := (Option.any_eq_true _ _).mp hwritten
  simp only [Bool.and_eq_true, decide_eq_true_eq, Option.any_eq_true] at hleft
  obtain ⟨rfl, left, rfl, hne⟩ := hleft
  exact ⟨⟨o, ho, hkept⟩, left, Destination.file_of_spot hspot, hne⟩

/-- **A report and a log that lead to the document** are written to it, though nothing was to be written over it. -/
theorem Session.document_written :
    FileTree.textAndLibrary.find (Path.ofText "in.md") = .file "in.md" (Utf8.encode "Text.") ∧
    Session.AltersText ["in.md", "lib.json", "--json", "in.md"] ∧
    Session.AltersText ["in.md", "lib.json", "--debug-log", "in.md"] :=
  ⟨by rfl, altersText_of (by decide +kernel) (by decide +kernel), altersText_of (by decide +kernel) (by decide +kernel)⟩

end Footcite
