import Footcite.Proofs.Cli.Logged
import Footcite.Proofs.Csl.Items
import Footcite.Proofs.Report.Numbers

/-!
# What ends a run without a word

A run may end by a failure that no one is told of. These are all the ways in which it does, each with what in the command
line or in the files brings it about (`Options.Escapes`, `Session.escapes_of_runIn`): a path that cannot be written to or
read, bytes that are no UTF-8, a JSON file that holds a number or a text that is none, an item whose date or a source
whose edition cannot be read, a number that is too long to be written, and an option that was given no value. Up to the
result a run writes to the file for the log only, so what it reads is what the files were at first, but for the lines of
the log (`Options.Logged`).
-/

namespace Footcite

/-! ## Files that cannot be read or written -/

namespace FileTree

/-- Nothing can be written to the path. -/
def Unwritable (tree : FileTree) (p : Path) (f : Failure) : Prop := ∀ g, tree.change p g = .error f

/-- **The JSON file at the path cannot be read**, and no one is told. -/
inductive Unreadable (tree : FileTree) (p : Path) : Failure → Prop
  | nulInPath : p.holdsNul = true → Unreadable tree p .nulInPath
  | notUtf8 {bytes : List UInt8} : tree.bytes p = .ok bytes → Utf8.decode? bytes = none → Unreadable tree p .notUtf8
  /-- A whole number in the file has too many digits. -/
  | longNumeral {bytes : List UInt8} {t : Text} : tree.bytes p = .ok bytes → decoded bytes = .ok t →
      Json.read t = .error .longNumeral → Unreadable tree p .badNumeral
  /-- A text in the file has half of a surrogate pair. -/
  | halfCharacter {bytes : List UInt8} {t : Text} : tree.bytes p = .ok bytes → decoded bytes = .ok t →
      Json.read t = .error .halfCharacter → Unreadable tree p .halfCharacter

variable {tree : FileTree} {p : Path} {f : Failure}

/-- The failure of a file that cannot be read names no number. -/
theorem Unreadable.told (h : tree.Unreadable p f) : f.told = f := by
  cases h <;> rfl

/-- Whether a path can be written to does not depend on what is written. -/
theorem unwritable_of_change {g : List UInt8 → List UInt8} (h : tree.change p g = .error f) : tree.Unwritable p f := by
  intro g'
  unfold change at h ⊢
  split at h <;> cases h <;> rfl

theorem follow_ne_unnameable {home : Option (List Text)} {parts : List Text} {w : Place} :
    tree.follow home w parts ≠ .unnameable := by
  induction parts generalizing w with
  | nil => exact fun h => by cases h
  | cons part rest ih =>
    intro h
    unfold follow at h
    split at h
    · exact ih h
    · split at h
      · cases h
      · simp only at h
        split at h
        · exact ih h
        all_goals cases h

/-- Only a path that holds a NUL leads nowhere for that. -/
theorem holdsNul_of_bytes (h : tree.bytes p = .error .nulInPath) : p.holdsNul = true := by
  unfold bytes at h
  split at h
  all_goals try cases h
  next hfind =>
  unfold find at hfind
  split at hfind
  · next hnul => exact hnul
  · split at hfind
    · cases hfind
    · exact absurd hfind follow_ne_unnameable

theorem decoded_error {bytes : List UInt8} (h : decoded bytes = .error f) :
    f = .notUtf8 ∧ Utf8.decode? bytes = none := by
  unfold decoded at h
  split at h <;> cases h
  exact ⟨rfl, ‹_›⟩

/-- **Why a JSON file is not read**: what the user is told, or that it cannot be read. -/
theorem json_error (h : tree.json p = .error f) : (∃ fault, f = .unloadable p.text fault) ∨ tree.Unreadable p f := by
  unfold json at h
  split at h
  · next hbytes =>
    cases h
    exact .inr (.nulInPath (holdsNul_of_bytes hbytes))
  · cases h
    exact .inl ⟨_, rfl⟩
  · next bytes hbytes =>
    rcases Except.bind_error h with h | ⟨t, ht, h⟩
    · obtain ⟨rfl, hnone⟩ := decoded_error h
      exact .inr (.notUtf8 hbytes hnone)
    · split at h
      · cases h
      · cases h
        exact .inl ⟨_, rfl⟩
      · next hread =>
        cases h
        exact .inr (.longNumeral hbytes ht hread)
      · next hread =>
        cases h
        exact .inr (.halfCharacter hbytes ht hread)

end FileTree

/-! ## What a run reads -/

namespace Options

variable (o : Options) (home : Option Text) (tree : FileTree)

/-- The path of the file for the log. -/
def logPath? : Option Path := (nonEmpty o.debugLog).map fun t => ((Path.ofText t).within home).canonical

/-- The path of the file for the result. -/
def outputPath? : Option Path := (nonEmpty o.output).map fun t => (Path.ofText t).within home

/-- **The files are those of the beginning**, but for some lines in the file for the log. -/
def Logged (tree' : FileTree) : Prop :=
  tree' = tree ∨ ∃ p lines, o.logPath? home = some p ∧ tree.append p lines = .ok tree'

/-- The files are those of the beginning, but for the log and for the result. -/
def Delivered (tree' : FileTree) : Prop := ∃ tree₁, o.Logged home tree tree₁ ∧ (tree' = tree₁ ∨ ∃ t result tree₂,
  nonEmpty o.output = some t ∧ tree₁.write ((Path.ofText t).within home) result = .ok tree₂ ∧ o.Logged home tree₂ tree')

/-- The JSON files that a run reads. -/
inductive Loads : Text → Prop
  | library {t : Text} : nonEmpty o.library = some t → Loads t
  | journals {t : Text} : nonEmpty o.userJournals = some t → Loads t
  /-- A library that is checked may stand in the place of the document. -/
  | checked {t : Text} : o.checkLibrary = true → nonEmpty o.input = some t → Loads t

/-- **The text of the document** that a run reads, from standard input or from a file. -/
inductive Reads (stdin : Text) : Text → Prop
  | stdin {input : Text} : o.input = some input → input = "-" → Reads stdin (Utf8.unifyLines stdin)
  | file {input t : Text} {tree' : FileTree} {bytes : List UInt8} : o.input = some input → input ≠ "-" →
      o.Logged home tree tree' → tree'.bytes ((Path.ofText input).within home) = .ok bytes →
      FileTree.decoded bytes = .ok t → Reads stdin t

/-- **The failures that end a run without a word**, each with what brings it about. -/
inductive Escapes (stdin : Text) : Failure → Prop
  /-- The file for the log cannot be made. -/
  | log {p : Path} {f : Failure} : o.logPath? home = some p → tree.Unwritable p f → Escapes stdin f
  /-- The starter table of journals cannot be written. -/
  | starter {t : Text} {tree' : FileTree} {f : Failure} : nonEmpty o.newUserJournals = some t →
      o.Logged home tree tree' → tree'.Unwritable ((Path.ofText t).within home) f → Escapes stdin f
  /-- The summary was given no layout. -/
  | noLayout : o.summary = none → Escapes stdin .noLayout
  /-- The path of the document or of the result holds a NUL. -/
  | nulInPath {t : Text} : o.input = some t ∨ nonEmpty o.output = some t →
      ((Path.ofText t).within home).holdsNul = true → Escapes stdin .nulInPath
  /-- The document is no file that can be opened, though something is there. -/
  | document {t : Text} {tree' : FileTree} {fault : FileFault} : o.input = some t → t ≠ "-" →
      o.Logged home tree tree' → tree'.bytes ((Path.ofText t).within home) = .error fault → fault ≠ .missing →
      Escapes stdin (FileTree.fault fault)
  /-- The document is no UTF-8. -/
  | notUtf8 {t : Text} {tree' : FileTree} {bytes : List UInt8} : o.input = some t → t ≠ "-" →
      o.Logged home tree tree' → tree'.bytes ((Path.ofText t).within home) = .ok bytes → Utf8.decode? bytes = none →
      Escapes stdin .notUtf8
  /-- A JSON file cannot be read. -/
  | unreadable {t : Text} {tree' : FileTree} {f : Failure} : o.Loads t → o.Logged home tree tree' →
      tree'.Unreadable ((Path.ofText t).within home) f → Escapes stdin f
  /-- The date of an item of the library cannot be read. -/
  | date {t : Text} {tree' : FileTree} {v : Json} {item : Csl.Item} {f : Failure} : nonEmpty o.library = some t →
      o.Logged home tree tree' → tree'.json ((Path.ofText t).within home) = .ok v → item ∈ Csl.items v →
      item.id?.isSome = true → item.Unreadable f → Escapes stdin f
  /-- There are notes to be numbered, and the offset was given no number. -/
  | noOffset {text : Text} : o.offset = none → o.Reads home tree stdin text → (Layout.ofText text).written ≠ [] →
      Escapes stdin .noOffset
  /-- The edition of a source in the library cannot be read. -/
  | edition {t : Text} {tree' : FileTree} {v : Json} {log log' : List Event} {library : Library} {id : Text}
      {s : Source} : nonEmpty o.library = some t → o.Logged home tree tree' →
      tree'.json ((Path.ofText t).within home) = .ok v →
      Gives (Csl.library ((Path.ofText t).within home).text v) log library log' → library.get? id = some s →
      s.OddEdition → Escapes stdin .badNumeral
  /-- The offset, or the position or the displayed number of a note, is too long to be written. -/
  | number {text : Text} {offset n : Int} : o.offset = some offset → o.Reads home tree stdin text →
      n = offset ∨ text.ShowsNote 0 n ∨ text.ShowsNote offset n → Numeral.fits n = false → Escapes stdin .longNumeral
  /-- The result cannot be written. -/
  | output {t : Text} {tree' : FileTree} {f : Failure} : nonEmpty o.output = some t → o.Logged home tree tree' →
      tree'.Unwritable ((Path.ofText t).within home) f → Escapes stdin f
  /-- The report cannot be written. -/
  | report {t : Text} {tree' : FileTree} {f : Failure} : nonEmpty o.json = some t → o.Delivered home tree tree' →
      tree'.Unwritable ((Path.ofText t).within home) f → Escapes stdin f

variable {o home tree}

/-- The log grows by lines. -/
theorem Logged.append {tree₁ tree₂ : FileTree} (h : o.Logged home tree tree₁) {p : Path} {t : Text}
    (hp : o.logPath? home = some p) (ht : tree₁.append p t = .ok tree₂) : o.Logged home tree tree₂ := by
  rcases h with rfl | ⟨q, lines, hq, hlines⟩
  · exact .inr ⟨p, t, hp, ht⟩
  · obtain rfl := Option.some.inj (hp.symm.trans hq)
    refine .inr ⟨p, lines ++ t, hp, ?_⟩
    rw [FileTree.append, (FileTree.change_change hlines).2] at ht
    rw [FileTree.append, ← ht]
    congr 1
    funext old
    simp [Utf8.encode]

end Options

/-! ## Sessions on the way -/

namespace Session

/-- **Only the log has been written to** since the files were these. -/
structure Logs (o : Options) (home : Option Text) (tree : FileTree) (s : Session) : Prop where
  directory : s.home = home
  path : s.debugLog = o.logPath? home
  there : s.LogThere
  tree : o.Logged home tree s.tree

/-- Nothing has been said yet. -/
structure Silent (s : Session) : Prop where
  printed : s.printed = []
  remarks : s.remarks = []
  displays : s.displays = []

variable {o : Options} {home : Option Text} {tree : FileTree}

theorem Logs.lasting : Lasting (Logs o home tree) where
  event _ h := ⟨h.directory, h.path, h.there, h.tree⟩
  line h hp ht := ⟨h.directory, h.path, h.there.change ht, h.tree.append (h.path ▸ hp) ht⟩

theorem Logs.path_eq {s : Session} (h : s.Logs o home tree) (t : Text) : s.path t = (Path.ofText t).within home := by
  rw [Session.path, h.directory]

/-- **Only the log and the result have been written to** since the files were these. -/
structure Done (o : Options) (home : Option Text) (tree : FileTree) (s : Session) : Prop where
  directory : s.home = home
  tree : o.Delivered home tree s.tree

theorem Silent.lasting : Lasting Silent :=
  ⟨fun _ h => ⟨h.printed, h.remarks, h.displays⟩, fun h _ _ => ⟨h.printed, h.remarks, h.displays⟩⟩

end Session

/-! ## Failures that are told -/

/-- A failure is told as it is, unless a number in its message is too long. -/
theorem Failure.told_cases (f : Failure) :
    f.told = f ∨ f.told = .longNumeral ∧ ∃ n ∈ f.numbers, Numeral.fits n = false := by
  unfold told
  split
  · exact .inl rfl
  · next h => exact .inr ⟨rfl, by simpa using h⟩

/-- **A failure that is foreseen and not told** comes of a number that is too long, or of an odd edition. -/
theorem Failure.Foreseen.untold {library : Library} {shown : Int → Prop} {f : Failure} (h : f.Foreseen library shown)
    (hreported : f.told.reported = false) : (f.told = .longNumeral ∧ ∃ n, shown n ∧ Numeral.fits n = false) ∨
      f.told = .badNumeral ∧ ∃ id s, library.get? id = some s ∧ s.OddEdition := by
  cases h with
  | told hf hnumbers =>
    rcases f.told_cases with htold | ⟨htold, n, hn, hlong⟩
    · rw [htold, hf] at hreported
      cases hreported
    · exact .inl ⟨htold, n, hnumbers n hn, hlong⟩
  | longNumber hn hlong => exact .inl ⟨rfl, _, hn, hlong⟩
  | oddEdition hs hodd => exact .inr ⟨rfl, _, _, hs, hodd⟩

/-- The failure of a date names no number. -/
theorem Csl.Item.Unreadable.told {item : Item} {f : Failure} (h : item.Unreadable f) : f.told = f := by
  cases h <;> rfl

/-- What is loaded from a file is a library in the file. -/
theorem Csl.load_ok {tree : FileTree} {p : Path} {library : Library} (h : (outcome (load tree p) []).1 = .ok library) :
    ∃ v log log', tree.json p = .ok v ∧ Gives (Csl.library p.text v) log library log' := by
  have hload : Gives (load tree p) [] library (outcome (load tree p) []).2 := Prod.ext h rfl
  simp only [load, gives_bind, gives_pure, gives_liftM] at hload
  obtain ⟨v, _, ⟨hv, -⟩, _, _, hlibrary, _, _, -, rfl, -⟩ := hload
  exact ⟨v, _, _, hv, hlibrary⟩

/-- **Why a library is not loaded**: what the user is told, a file that cannot be read, or the date of an item. -/
theorem Csl.load_error {tree : FileTree} {p : Path} {f : Failure} (h : (outcome (load tree p) []).1 = .error f) :
    (∃ fault, f = .unloadable p.text fault) ∨ tree.Unreadable p f ∨
      ∃ v, tree.json p = .ok v ∧ ∃ item ∈ items v, item.id?.isSome = true ∧ item.Unreadable f := by
  rcases outcome_bind_error h with h | ⟨v, _, hv, h⟩
  · exact (FileTree.json_error h).imp_right .inl
  · rcases outcome_bind_error h with h | ⟨_, _, -, h⟩
    · exact (library_fails h).imp_right fun hitem => .inr ⟨v, (gives_liftM.mp hv).1, hitem⟩
    · cases h

theorem JournalTable.load_error {tree : FileTree} {p : Path} {f : Failure}
    (h : (outcome (load tree p) []).1 = .error f) :
    (∃ fault, f = .unloadable p.text fault) ∨ tree.Unreadable p f := by
  rcases outcome_bind_error h with h | ⟨v, _, -, h⟩
  · exact FileTree.json_error h
  · cases v with
    | array | object => cases h
    | null | bool | int | float | string =>
      cases h
      exact .inl ⟨_, rfl⟩

theorem Csl.checkFile_error {tree : FileTree} {p : Path} {f : Failure} (h : checkFile tree p = .error f) :
    (∃ fault, f = .unloadable p.text fault) ∨ tree.Unreadable p f := by
  unfold checkFile at h
  rw [← bind_pure_comp] at h
  rcases Except.bind_error h with h | ⟨_, -, h⟩
  · exact FileTree.json_error h
  · cases h

/-- **Why a starter table is not written**, where the user is not told. -/
theorem JournalTable.unwritable_of_writeStarter {tree : FileTree} {p : Path} {f : Failure}
    (h : writeStarter tree p = .error f) (hreported : f.reported = false) : tree.Unwritable p f := by
  rcases Except.bind_error h with h | ⟨there, -, h⟩
  · unfold FileTree.has at h
    split at h <;> cases h
    next hfind =>
    intro g
    rw [FileTree.change, hfind]
  · split at h
    · cases h
      cases hreported
    · exact FileTree.unwritable_of_change h

namespace Running

variable {α : Type} {o : Options} {home : Option Text} {tree : FileTree} {stdin : Text} {s s' : Session} {f : Failure}

/-- A failure that is not told ends the run. -/
theorem fail_error {lead : Text} {f g : Failure} (h : (outcome (fail lead f : Running α) s).1 = .error (.failure g)) :
    f.told = g ∧ g.reported = false := by
  unfold fail at h
  split at h
  · cases h
  · next hreported =>
    cases h
    exact ⟨rfl, Bool.eq_false_iff.mpr hreported⟩

/-- Work that is reported on fails without a word only if it does, or its answer is a failure that is not told. -/
theorem reporting_error {work : Running (Except Failure α)} {g : Failure}
    (h : (outcome (reporting work) s).1 = .error (.failure g)) : (outcome work s).1 = .error (.failure g) ∨
      ∃ f s', Gives work s (.error f) s' ∧ f.told = g ∧ g.reported = false := by
  rcases outcome_bind_error h with h | ⟨r, s', hr, h⟩
  · exact .inl h
  · cases r with
    | ok a => cases h
    | error f => exact .inr ⟨f, s', hr, fail_error h⟩

/-- The failure of what is logged and reported on. -/
theorem reporting_logging_error {work : Session → Logging α} {g : Failure} (hs : s.LogThere)
    (hwrites : Writes (outcome (work s) []).2)
    (h : (outcome (reporting do logging (work (← get))) s).1 = .error (.failure g)) :
    ∃ f, (outcome (work s) []).1 = .error f ∧ f.told = g ∧ g.reported = false := by
  rcases reporting_error h with h | ⟨f, s', hf, hg⟩
  · obtain ⟨-, e, he, hlong⟩ := logging_error hs h
    rw [hwrites e he] at hlong
    cases hlong
  · exact ⟨f, gives_logging (gives_get_bind.mp hf), hg⟩

/-! ## What is loaded -/

theorem loadLibrary_escapes {t : Text} (hs : s.Logs o home tree) (ht : nonEmpty o.library = some t)
    (h : (outcome (loadLibrary t) s).1 = .error (.failure f)) : o.Escapes home tree stdin f := by
  obtain ⟨g, hg, rfl, hreported⟩ := reporting_logging_error hs.there (load_keeps _ _ [] (by simp [Writes])) h
  rw [hs.path_eq] at hg
  rcases Csl.load_error hg with ⟨fault, rfl⟩ | hfile | ⟨v, hv, item, hitem, hid, hdate⟩
  · cases hreported
  · rw [hfile.told]
    exact .unreadable (.library ht) hs.tree hfile
  · rw [hdate.told]
    exact .date ht hs.tree hv hitem hid hdate

theorem loadJournals_escapes (hs : s.Logs o home tree)
    (h : (outcome (loadJournals o) s).1 = .error (.failure f)) : o.Escapes home tree stdin f := by
  unfold loadJournals at h
  split at h
  · cases h
  · next t ht =>
    obtain ⟨g, hg, rfl, hreported⟩ := reporting_logging_error hs.there (loadTable_keeps _ _ [] (by simp [Writes])) h
    rw [hs.path_eq] at hg
    rcases JournalTable.load_error hg with ⟨fault, rfl⟩ | hfile
    · cases hreported
    · rw [hfile.told]
      exact .unreadable (.journals ht) hs.tree hfile

/-! ## The document -/

theorem changeFiles_error {p : Path} {g : List UInt8 → List UInt8}
    (h : (outcome (changeFiles fun tree => tree.change p g) s).1 = .error (.failure f)) : s.tree.Unwritable p f := by
  rw [changeFiles, outcome_get_bind] at h
  rcases outcome_bind_error h with h | ⟨_, _, -, h⟩
  · exact FileTree.unwritable_of_change (orFail_error.mp h)
  · cases h

/-- A file that is written is changed, and nothing else. -/
theorem gives_changeFiles {p : Path} {g : List UInt8 → List UInt8}
    (h : Gives (changeFiles fun tree => tree.change p g) s () s') :
    ∃ tree, s.tree.change p g = .ok tree ∧ s' = { s with tree } := by
  obtain ⟨tree, _, hchange, h⟩ := gives_bind.mp (gives_get_bind.mp h)
  obtain ⟨hok, rfl⟩ := gives_orFail.mp hchange
  exact ⟨tree, hok, (gives_modify.mp h).symm⟩

theorem guardInput_escapes {input : Text} (hs : s.Logs o home tree) (hinput : o.input = some input)
    (h : (outcome (guardInput o input (o.outputPath? home)) s).1 = .error (.failure f)) :
    o.Escapes home tree stdin f := by
  rw [guardInput, outcome_get_bind, Options.outputPath?] at h
  cases houtput : nonEmpty o.output with
  | none =>
    rw [houtput] at h
    cases h
  | some t =>
    rw [houtput] at h
    simp only [Option.map_some, hs.path_eq] at h
    split at h
    · cases h
    · split at h
      · next hnul =>
        cases h
        rcases Bool.or_eq_true_iff.mp hnul with hnul | hnul
        · exact .nulInPath (.inl hinput) hnul
        · exact .nulInPath (.inr houtput) hnul
      · split at h <;> cases h

theorem readDocument_escapes {input : Text} (hs : s.Logs o home tree) (hinput : o.input = some input)
    (h : (outcome (readDocument input stdin) s).1 = .error (.failure f)) : o.Escapes home tree stdin f := by
  unfold readDocument at h
  split at h
  · cases h
  · next hdash =>
    simp only [outcome_get_bind, hs.path_eq] at h
    split at h
    · next bytes hbytes =>
      obtain ⟨rfl, hnone⟩ := FileTree.decoded_error (orFail_error.mp h)
      exact .notUtf8 hinput hdash hs.tree hbytes hnone
    · cases h
    · next fault hmissing hbytes =>
      cases h
      exact .document hinput hdash hs.tree hbytes fun he => hmissing (he ▸ rfl)

theorem reads_of_readDocument {input t : Text} (hs : s.Logs o home tree) (hinput : o.input = some input)
    (h : Gives (readDocument input stdin) s t s') : o.Reads home tree stdin t := by
  unfold readDocument at h
  split at h
  · next hdash =>
    obtain ⟨rfl, -⟩ := gives_pure.mp h
    exact .stdin hinput hdash
  · next hdash =>
    simp only [gives_get_bind, hs.path_eq] at h
    split at h
    · next bytes hbytes => exact .file hinput hdash hs.tree hbytes (gives_orFail.mp h).1
    · exact absurd h gives_throw
    · exact absurd h gives_throw

/-! ## The work and its result -/

theorem offsetFor_error {t : Text} (h : offsetFor o t = .error f) :
    f = .noOffset ∧ o.offset = none ∧ (Layout.ofText t).written ≠ [] := by
  unfold offsetFor at h
  split at h
  · cases h
  · cases h
  · next hoffset hprose =>
    cases h
    refine ⟨rfl, hoffset, fun hnone => ?_⟩
    cases hlayout : Layout.ofText t with
    | prose t' => exact hprose t' hlayout
    | note | unclosed =>
      rw [hlayout] at hnone
      cases hnone

/-- A document that gets an offset got it from the options, or has no notes. -/
theorem offsetFor_ok {t : Text} {offset : Int} (h : offsetFor o t = .ok offset) :
    o.offset = some offset ∨ o.offset = none ∧ (Layout.ofText t).written = [] := by
  unfold offsetFor at h
  split at h
  · next hoffset =>
    cases h
    exact .inl hoffset
  · next hoffset hprose =>
    refine .inr ⟨hoffset, ?_⟩
    rw [hprose]
    rfl
  · cases h

/-- A number that is too long and comes up in the work is the offset, or the number or the position of a note. -/
theorem number_escapes {t : Text} {offset n : Int} (ht : o.Reads home tree stdin t)
    (hoffset : offsetFor o t = .ok offset)
    (hn : o.offset = some n ∨ t.ShowsNote 0 n ∨ t.ShowsNote offset n) (hlong : Numeral.fits n = false) :
    o.Escapes home tree stdin .longNumeral := by
  rcases offsetFor_ok hoffset with hsome | ⟨hnone, hprose⟩
  · exact .number hsome ht (hn.imp_left fun h => Option.some.inj (h.symm.trans hsome)) hlong
  · have hshows (m : Int) : ¬t.ShowsNote m n := by
      rintro ⟨i, hi, -⟩
      rw [hprose] at hi
      exact absurd hi (Nat.not_lt_zero i)
    rcases hn with hn | hn | hn
    · cases hnone.symm.trans hn
    · exact absurd hn (hshows 0)
    · exact absurd hn (hshows offset)

variable {t library : Text} {sources : Library} {offset : Int} {journals : Journals} {smallCaps : Bool}

/-- **The work on a document** fails without a word for a number that is too long, or for the edition of a source. -/
theorem process_escapes (hs : s.Logs o home tree) (ht : o.Reads home tree stdin t)
    (hoffset : offsetFor o t = .ok offset) (hlibrary : nonEmpty o.library = some library) {tree' : FileTree}
    (htree : o.Logged home tree tree')
    (hload : (outcome (Csl.load tree' ((Path.ofText library).within home)) []).1 = .ok sources)
    (h : (outcome (reporting (editing journals (process sources offset smallCaps t))) s).1 = .error (.failure f)) :
    o.Escapes home tree stdin f := by
  obtain ⟨v, log, log', hv, hsources⟩ := Csl.load_ok hload
  rcases reporting_error h with h | ⟨g, s', hg, rfl, hreported⟩
  · obtain ⟨hf, e, he, hlong⟩ := editing_error hs.there h
    cases hf
    have hnamed := process_keeps_log sources offset smallCaps t { journals } (by simp [Editing.Logs]) e he
    cases e with
    | decided note id form => exact number_escapes ht hoffset (.inr (.inr hnamed)) hlong
    | _ => cases hlong
  · have hforeseen := process_fails (Csl.library_keyed hsources) offset smallCaps t _ g (gives_editing hg)
    rcases hforeseen.untold hreported with ⟨htold, n, hn, hlong⟩ | ⟨htold, id, source, hsource, hodd⟩
    · rw [htold]
      exact number_escapes ht hoffset (.inr (.inr hn)) hlong
    · rw [htold]
      exact .edition hlibrary htree hv hsources hsource hodd

theorem deliver_escapes {result : Text} (hs : s.Logs o home tree)
    (h : (outcome (deliver (o.outputPath? home) result) s).1 = .error (.failure f)) :
    o.Escapes home tree stdin f := by
  unfold Options.outputPath? at h
  cases houtput : nonEmpty o.output with
  | none =>
    rw [houtput] at h
    cases h
  | some t =>
    rw [houtput] at h
    rcases outcome_bind_error h with h | ⟨_, s₁, hgives, h⟩
    · exact .output houtput hs.tree (changeFiles_error h)
    · obtain ⟨tree₂, hwrite, rfl⟩ := gives_changeFiles hgives
      -- The file for the log is still there, and the event can be written.
      obtain ⟨-, hlong⟩ := emit_error (hs.there.change hwrite) h
      cases hlong

theorem done_of_deliver {result : Text} (hs : s.Logs o home tree)
    (h : Gives (deliver (o.outputPath? home) result) s () s') : s'.Done o home tree := by
  unfold Options.outputPath? at h
  cases houtput : nonEmpty o.output with
  | none =>
    rw [houtput] at h
    rw [← gives_modify.mp h]
    exact ⟨hs.directory, s.tree, hs.tree, .inl rfl⟩
  | some t =>
    rw [houtput] at h
    obtain ⟨_, s₁, hgives, h⟩ := gives_bind.mp h
    obtain ⟨tree₂, hwrite, rfl⟩ := gives_changeFiles hgives
    have hs₂ : Session.Logs o home tree₂ { s with tree := tree₂ } :=
      ⟨hs.directory, hs.path, hs.there.change hwrite, .inl rfl⟩
    have hs' := (emit_keeps Session.Logs.lasting _).gives h hs₂
    exact ⟨hs'.directory, s.tree, hs.tree, .inr ⟨t, result, tree₂, houtput, hwrite, hs'.tree⟩⟩

theorem remarks_keep (lines : List Text) : Keeps (Session.Done o home tree) (lines.forM remark) :=
  Keeps.forM (fun _ => .modify fun _ hs => ⟨hs.directory, hs.tree⟩) lines

/-- Lines can be printed. -/
theorem remarks_error {β : Type} {g : β → Text} {x : Ending} : ∀ {xs : List β} {s : Session},
    (outcome (xs.forM fun b => remark (g b)) s).1 ≠ .error x
  | [], _, h => by cases h
  | _ :: _, _, h => by
    rcases outcome_bind_error h with h | ⟨_, _, -, h⟩
    · cases h
    · exact remarks_error h

theorem showSummary_keeps_done (layout : SummaryLayout) (r : Resolution) :
    Keeps (Session.Done o home tree) (showSummary layout r) := by
  cases layout with
  | none => exact .pure _
  | plain => exact (orFail_keeps _).bind fun lines => remarks_keep lines
  | rich => exact (orFail_keeps _).bind fun _ => .modify fun _ hs => ⟨hs.directory, hs.tree⟩

theorem showSummary_error {layout : SummaryLayout} {r : Resolution}
    (h : (outcome (showSummary layout r) s).1 = .error (.failure f)) :
    f = .longNumeral ∧ ∃ d ∈ r.citations, Numeral.fits d.number = false := by
  cases layout with
  | none => cases h
  | plain =>
    rcases outcome_bind_error h with h | ⟨_, _, -, h⟩
    · exact Resolution.summary_error (orFail_error.mp h)
    · exact absurd h remarks_error
  | rich =>
    rcases outcome_bind_error h with h | ⟨_, _, -, h⟩
    · exact Resolution.summaryDisplays_error (orFail_error.mp h)
    · cases h

theorem writeReport_error {input : Text} {r : Resolution} (hs : s.Done o home tree)
    (h : (outcome (writeReport o input library r) s).1 = .error (.failure f)) : o.Escapes home tree stdin f ∨
      f = .longNumeral ∧ (r.report (some input) (some library) o.offset).writable = false := by
  unfold writeReport at h
  split at h
  · cases h
  · next t ht =>
    rcases outcome_bind_error h with h | ⟨v, s₁, hv, h⟩
    · have hchecked := orFail_error.mp h
      unfold Json.checked at hchecked
      split at hchecked
      · cases hchecked
      · next hlong =>
        cases hchecked
        exact .inr ⟨rfl, Bool.eq_false_iff.mpr hlong⟩
    · obtain ⟨-, rfl⟩ := gives_orFail.mp hv
      have hpath : s.path t = (Path.ofText t).within home := by rw [Session.path, hs.directory]
      rw [outcome_get_bind, hpath] at h
      exact .inl (.report ht hs.tree (changeFiles_error h))

/-- **Working through a document** ends without a word only as it is said. -/
theorem citeDocument_escapes {input : Text} (hs : s.Logs o home tree) (hinput : o.input = some input)
    (hlibrary : nonEmpty o.library = some library)
    (h : (outcome (citeDocument o input library stdin) s).1 = .error (.failure f)) : o.Escapes home tree stdin f := by
  rcases outcome_bind_error h with h | ⟨layout, s₁, hlayout, h⟩
  · unfold summaryLayout at h
    split at h
    · cases h
    · next hnone =>
      cases h
      exact .noLayout hnone
  have hs := (summaryLayout_keeps o).gives hlayout hs
  rw [outcome_get_bind] at h
  rw [show (nonEmpty o.output).map s₁.path = o.outputPath? home from congrArg (Option.map · _) (funext hs.path_eq)] at h
  rcases outcome_bind_error h with h | ⟨_, _, hguard, h⟩
  · exact guardInput_escapes hs hinput h
  have hs := (guardInput_keeps o input _).gives hguard hs
  rcases outcome_bind_error h with h | ⟨t, _, hread, h⟩
  · exact readDocument_escapes hs hinput h
  have ht := reads_of_readDocument hs hinput hread
  have hs := (readDocument_keeps input stdin).gives hread hs
  rcases outcome_bind_error h with h | ⟨sources, _, hload, h⟩
  · exact loadLibrary_escapes hs hlibrary h
  obtain ⟨hsources, hkeeps⟩ := gives_loadLibrary hload
  rw [hs.path_eq] at hsources
  have htree := hs.tree
  have hs := hkeeps Session.Logs.lasting hs
  rcases outcome_bind_error h with h | ⟨user, _, hjournals, h⟩
  · exact loadJournals_escapes hs h
  have hs := gives_loadJournals hjournals Session.Logs.lasting hs
  rcases outcome_bind_error h with h | ⟨offset, _, hgives, h⟩
  · obtain ⟨rfl, hnone, hnotes⟩ := offsetFor_error (orFail_error.mp h)
    exact .noOffset hnone ht hnotes
  obtain ⟨hoffset, rfl⟩ := gives_orFail.mp hgives
  rcases outcome_bind_error h with h | ⟨result, _, hresult, h⟩
  · exact process_escapes hs ht hoffset hlibrary htree hsources h
  have hwork := gives_reporting hresult
  have hs := (editing_keeps Session.Logs.lasting _ _).gives hwork hs
  rcases outcome_bind_error h with h | ⟨_, _, hdeliver, h⟩
  · exact deliver_escapes hs h
  have hs := done_of_deliver hs hdeliver
  -- What is said of the result names no other numbers.
  obtain ⟨v, log, log', -, hlib⟩ := Csl.load_ok hsources
  have hprocess : Gives (process sources offset o.smallCaps t) _ result _ := Prod.ext (gives_editing hwork) rfl
  rcases outcome_bind_error h with h | ⟨_, _, hshow, h⟩
  · obtain ⟨rfl, d, hd, hlong⟩ := showSummary_error h
    have hshown := (Processed.shows_citation (Csl.library_keyed hlib) hprocess hd).1
    exact number_escapes ht hoffset (.inr (.inr hshown)) hlong
  have hs := (showSummary_keeps_done layout _).gives hshow hs
  rcases writeReport_error hs h with h | ⟨rfl, hlong⟩
  · exact h
  · by_contra hnone
    have hfits (n : Int) (hn : o.offset = some n ∨ t.ShowsNote 0 n ∨ t.ShowsNote offset n) : Numeral.fits n = true := by
      by_contra hlong
      exact hnone (number_escapes ht hoffset hn (Bool.eq_false_iff.mpr hlong))
    have hwritable := Processed.report_writable (Csl.library_keyed hlib) hprocess (some input) (some library)
      (fun n hn => hfits n (.inl hn)) (fun n hn => hfits n (.inr (.inl hn))) (fun n hn => hfits n (.inr (.inr hn)))
    rw [hlong] at hwritable
    cases hwritable

/-! ## The whole run -/

/-- Setting up the log fails only if its file cannot be made. -/
theorem openLog_escapes (h : (outcome (openLog o) { tree, home }).1 = .error (.failure f)) :
    o.Escapes home tree stdin f := by
  unfold openLog at h
  rcases outcome_bind_error h with h | ⟨_, _, hset, h⟩
  · cases h
  have hset := gives_modify.mp hset
  subst hset
  cases hlog : nonEmpty o.debugLog with
  | none =>
    rw [hlog] at h
    cases h
  | some t =>
    rw [hlog] at h
    rw [outcome_get_bind] at h
    rcases outcome_bind_error h with h | ⟨_, _, -, h⟩
    · exact .log (by rw [Options.logPath?, hlog]; rfl) (changeFiles_error h)
    · cases h

/-- **When the log is set up**, only its file has been written to, and nothing has been said. -/
theorem logs_of_openLog (h : Gives (openLog o) { tree, home } () s) : s.Logs o home tree ∧ s.Silent := by
  unfold openLog at h
  obtain ⟨_, _, hset, h⟩ := gives_bind.mp h
  have hset := gives_modify.mp hset
  subst hset
  cases hlog : nonEmpty o.debugLog with
  | none =>
    rw [hlog] at h
    obtain ⟨-, rfl⟩ := gives_pure.mp h
    exact ⟨⟨rfl, by rw [Options.logPath?, hlog]; rfl, fun _ hp => (by cases hp), .inl rfl⟩, rfl, rfl, rfl⟩
  | some t =>
    rw [hlog] at h
    obtain ⟨_, _, hgives, h⟩ := gives_bind.mp (gives_get_bind.mp h)
    obtain ⟨tree', hmake, rfl⟩ := gives_changeFiles hgives
    rw [← gives_modify.mp h]
    have hpath : o.logPath? home = some ((Path.ofText t).within home).canonical := by
      rw [Options.logPath?, hlog]
      rfl
    refine ⟨⟨rfl, hpath.symm, ?_, .inr ⟨_, [], hpath, hmake⟩⟩, rfl, rfl, rfl⟩
    rintro p hp
    cases hp
    exact (FileTree.change_change hmake).1

theorem startJournals_escapes {t : Text} (hs : s.Logs o home tree) (ht : nonEmpty o.newUserJournals = some t)
    (h : (outcome (startJournals t) s).1 = .error (.failure f)) : o.Escapes home tree stdin f := by
  simp only [startJournals, outcome_get_bind, hs.path_eq] at h
  split at h
  · cases h
  · next g hg =>
    split at h
    · cases h
    · next hreported =>
      cases h
      exact .starter ht hs.tree (JournalTable.unwritable_of_writeStarter hg (Bool.eq_false_iff.mpr hreported))

theorem reviewLibrary_escapes (hs : s.Logs o home tree) (hcheck : o.checkLibrary = true)
    (h : (outcome (reviewLibrary o) s).1 = .error (.failure f)) : o.Escapes home tree stdin f := by
  unfold reviewLibrary at h
  split at h
  · cases h
  · next t ht =>
    have hloads : o.Loads t := by
      rcases Option.or_eq_some_iff.mp ht with ht | ⟨-, ht⟩
      · exact .library ht
      · exact .checked hcheck ht
    simp only [outcome_get_bind, hs.path_eq] at h
    split at h
    · next g hg =>
      obtain ⟨rfl, hreported⟩ := fail_error h
      rcases Csl.checkFile_error hg with ⟨fault, rfl⟩ | hfile
      · cases hreported
      · rw [hfile.told]
        exact .unreadable hloads hs.tree hfile
    · split at h
      · rcases outcome_bind_error h with h | ⟨_, _, -, h⟩ <;> cases h
      · rcases outcome_bind_error h with h | ⟨_, _, -, h⟩
        · exact absurd h remarks_error
        · cases h

/-- **What ends the program without a word.** -/
theorem perform_escapes (h : (outcome (perform o stdin) { tree, home }).1 = .error (.failure f)) :
    o.Escapes home tree stdin f := by
  unfold perform at h
  rcases outcome_bind_error h with h | ⟨_, s, hopen, h⟩
  · exact openLog_escapes h
  have hs := (logs_of_openLog hopen).1
  split at h
  · next t ht => exact startJournals_escapes hs ht h
  · split at h
    · next hcheck => exact reviewLibrary_escapes hs hcheck h
    · split at h
      · next input library hinput hlibrary =>
        exact citeDocument_escapes hs (Option.filter_eq_some_iff.mp hinput).1 hlibrary h
      · cases h

end Running

/-- **A run that ends without a word** does so for one of the reasons that are listed. -/
theorem Session.escapes_of_runIn {home : Option Text} {arguments : List Text} {tree : FileTree} {stdin : Text}
    {f : Failure} (h : (Session.runIn home arguments tree stdin).1 = .failure f) :
    ∃ o, Options.read arguments = .ok o ∧ o.Escapes home tree stdin f := by
  have hfailed : (outcome (Running.program arguments stdin) { tree, home }).1 = .error (.failure f) := by
    rw [runIn_eq] at h
    rcases ho : outcome (Running.program arguments stdin) { tree, home } with ⟨e | _, s⟩
    · rw [ho] at h
      exact congrArg Except.error h
    · rw [ho] at h
      cases h
  unfold Running.program at hfailed
  split at hfailed
  · next o ho => exact ⟨o, ho, Running.perform_escapes hfailed⟩
  · cases hfailed
  · cases hfailed

end Footcite
