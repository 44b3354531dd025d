import Footcite.Cli.Program
import Footcite.Proofs.Files.Tree

/-!
# What logging does to a session

Much of a run is work that leaves no trace but in the log. What lasts when an event is put into the log, and when a line
is written to the file for it (`Session.Lasting`), is kept by all such work (`Running.logging_keeps`,
`Running.editing_keeps`). The file for the log stays where it is once it was made (`Session.LogThere`). So work fails by
its log only for an event that is to be shown and names a number too long to be written (`Running.logging_error`,
`Running.editing_error`).
-/

namespace Footcite

namespace Session

/-- **What is true of a session lasts**: it stays true when something is logged. -/
structure Lasting (P : Session → Prop) : Prop where
  event : ∀ {s : Session} (e : Event), P s → P { s with log := s.log ++ [e] }
  line : ∀ {s : Session} {p : Path} {t : Text} {tree : FileTree}, P s → s.debugLog = some p →
    s.tree.append p t = .ok tree → P { s with tree }

/-- The file for the log is there, if there is to be one. -/
def LogThere (s : Session) : Prop := ∀ p, s.debugLog = some p → ∃ name bytes, s.tree.find p = .file name bytes

theorem Lasting.and {P Q : Session → Prop} (hP : Lasting P) (hQ : Lasting Q) : Lasting fun s => P s ∧ Q s :=
  ⟨fun e h => ⟨hP.event e h.1, hQ.event e h.2⟩, fun h hp ht => ⟨hP.line h.1 hp ht, hQ.line h.2 hp ht⟩⟩

/-- A file that is there stays there, whatever is written. -/
theorem LogThere.change {s : Session} {p : Path} {f : List UInt8 → List UInt8} {tree : FileTree} (h : s.LogThere)
    (hchange : s.tree.change p f = .ok tree) : LogThere { s with tree } := by
  intro q hq
  obtain ⟨name, bytes, hfile⟩ := h q hq
  exact ⟨name, FileTree.exists_find_change hfile hchange⟩

theorem LogThere.lasting : Lasting LogThere := ⟨fun _ h => h, fun h _ ht => h.change ht⟩

end Session

namespace Running

variable {α : Type} {P : Session → Prop}

/-! ## Events -/

/-- What putting an event into the log comes to. -/
theorem outcome_emit (e : Event) (s : Session) : outcome (emit e) s =
    if s.debugLog.isSome || s.shows e then
      if e.writable then
        match s.debugLog with
        | none => (.ok (), { s with log := s.log ++ [e] })
        | some p => match s.tree.append p (e.line ++ ['\n']) with
          | .ok tree => (.ok (), { s with log := s.log ++ [e], tree })
          | .error f => (.error (.failure f), { s with log := s.log ++ [e] })
      else if s.shows e then (.error (.failure .longNumeral), s) else (.ok (), s)
    else (.ok (), s) := by
  rw [emit, outcome_get_bind]
  split
  · split
    · cases s.debugLog with
      | none => rfl
      | some p =>
        rw [outcome_bind]
        show outcome (orFail (s.tree.append p (e.line ++ ['\n'])) >>= _) _ = _
        dsimp only
        cases s.tree.append p (e.line ++ ['\n']) <;> rfl
    · split <;> rfl
  · rfl

/-- An event keeps what lasts. -/
theorem emit_keeps (hP : Session.Lasting P) (e : Event) : Keeps P (emit e) := by
  intro s hs
  rw [outcome_emit]
  split
  · split
    · split
      · exact hP.event e hs
      · next p hp =>
        split
        · next ht => exact hP.line (hP.event e hs) hp ht
        · exact hP.event e hs
    · split <;> exact hs
  · exact hs

/-- **An event cannot be logged** only if it is to be shown and cannot be written. -/
theorem emit_error {e : Event} {s : Session} {x : Ending} (hs : s.LogThere) (h : (outcome (emit e) s).1 = .error x) :
    x = .failure .longNumeral ∧ e.writable = false := by
  rw [outcome_emit] at h
  split at h
  · split at h
    · split at h
      · cases h
      · next p hp =>
        obtain ⟨name, bytes, hfile⟩ := hs p hp
        rw [FileTree.append, FileTree.change, hfile] at h
        cases h
    · next hwritable =>
      split at h <;> cases h
      exact ⟨rfl, Bool.eq_false_iff.mpr hwritable⟩
  · cases h

/-- Some events cannot be logged only if one of them is to be shown and cannot be written. -/
theorem forM_emit_error {x : Ending} : ∀ {es : List Event} {s : Session}, s.LogThere →
    (outcome (es.forM emit) s).1 = .error x → x = .failure .longNumeral ∧ ∃ e ∈ es, e.writable = false
  | [], _, _, h => by cases h
  | e :: es, s, hs, h => by
    rcases outcome_bind_error h with h | ⟨_, s₁, he, h⟩
    · obtain ⟨hx, hwritable⟩ := emit_error hs h
      exact ⟨hx, e, List.mem_cons_self, hwritable⟩
    · obtain ⟨hx, e', he', hwritable⟩ := forM_emit_error ((emit_keeps Session.LogThere.lasting e).gives he hs) h
      exact ⟨hx, e', List.mem_cons_of_mem e he', hwritable⟩

/-! ## Work -/

theorem logging_keeps (hP : Session.Lasting P) (work : Logging α) : Keeps P (logging work) :=
  (Keeps.forM (emit_keeps hP) _).bind fun _ => .pure _

theorem editing_keeps (hP : Session.Lasting P) (journals : Journals) (work : Editing α) :
    Keeps P (editing journals work) :=
  (Keeps.forM (emit_keeps hP) _).bind fun _ => .pure _

/-- The answer of work that is logged is that of the work. -/
theorem gives_logging {work : Logging α} {s s' : Session} {r : Except Failure α} (h : Gives (logging work) s r s') :
    (outcome work []).1 = r := by
  obtain ⟨_, _, _, h⟩ := gives_bind.mp h
  exact (gives_pure.mp h).1

theorem gives_editing {journals : Journals} {work : Editing α} {s s' : Session} {r : Except Failure α}
    (h : Gives (editing journals work) s r s') : (outcome work { journals }).1 = r := by
  obtain ⟨_, _, _, h⟩ := gives_bind.mp h
  exact (gives_pure.mp h).1

/-- **Work fails by its log** only for an event that cannot be written. -/
theorem logging_error {work : Logging α} {s : Session} {x : Ending} (hs : s.LogThere)
    (h : (outcome (logging work) s).1 = .error x) :
    x = .failure .longNumeral ∧ ∃ e ∈ (outcome work []).2, e.writable = false := by
  rcases outcome_bind_error h with h | ⟨_, _, -, h⟩
  · exact forM_emit_error hs h
  · cases h

theorem editing_error {journals : Journals} {work : Editing α} {s : Session} {x : Ending} (hs : s.LogThere)
    (h : (outcome (editing journals work) s).1 = .error x) :
    x = .failure .longNumeral ∧ ∃ e ∈ (outcome work { journals }).2.log, e.writable = false := by
  rcases outcome_bind_error h with h | ⟨_, _, -, h⟩
  · exact forM_emit_error hs h
  · cases h

/-! ## Parts of a run that leave the session alone -/

theorem orFail_keeps (x : Except Failure α) : Keeps P (orFail x) := by
  cases x with
  | ok a => exact .pure a
  | error f => exact .throw _

theorem gives_orFail {x : Except Failure α} {s s' : Session} {a : α} :
    Gives (orFail x) s a s' ↔ x = .ok a ∧ s = s' := by
  cases x with
  | ok b => simp [orFail]
  | error f => simp [orFail]

theorem orFail_error {x : Except Failure α} {s : Session} {f : Failure} :
    (outcome (orFail x) s).1 = .error (.failure f) ↔ x = .error f := by
  cases x with
  | ok b => simp [orFail, outcome_pure]
  | error g => simp [orFail, outcome_throw]

theorem guardInput_keeps (o : Options) (input : Text) (output : Option Path) : Keeps P (guardInput o input output) := by
  refine .get_bind fun s _ => ?_
  cases output with
  | none => exact .pure _
  | some p =>
    simp only
    split
    · exact .pure _
    · split
      · exact .throw _
      · split
        · exact .throw _
        · exact .pure _

theorem readDocument_keeps (input stdin : Text) : Keeps P (readDocument input stdin) := by
  unfold readDocument
  split
  · exact .pure _
  · refine .get_bind fun s _ => ?_
    split
    · exact orFail_keeps _
    · exact .throw _
    · exact .throw _

theorem summaryLayout_keeps (o : Options) : Keeps P (summaryLayout o) := by
  unfold summaryLayout
  split
  · exact .pure _
  · exact .throw _

/-- What a part of a run gives that is reported on. -/
theorem gives_reporting {work : Running (Except Failure α)} {s s' : Session} {a : α}
    (h : Gives (reporting work) s a s') : Gives work s (.ok a) s' := by
  obtain ⟨r, s₁, hr, h⟩ := gives_bind.mp h
  cases r with
  | ok b =>
    obtain ⟨rfl, rfl⟩ := gives_pure.mp h
    exact hr
  | error f =>
    simp only [fail] at h
    split at h
    · simp only [gives_bind, gives_throw, and_false, exists_false] at h
    · exact absurd h gives_throw

/-! ## Libraries and tables -/

/-- All events in a log can be written. -/
def Writes (log : List Event) : Prop := ∀ e ∈ log, e.writable = true

theorem note_keeps {e : Event} (he : e.writable = true) : Keeps Writes (Logging.note e) :=
  .modify fun _ hlog e' h => (List.mem_append.mp h).elim (hlog e') fun h => List.mem_singleton.mp h ▸ he

theorem addItems_keeps (origin : Text) : ∀ (items : List Csl.Item) (library : Library),
    Keeps Writes (Csl.addItems origin library items)
  | [], _ => .pure _
  | item :: items, library => by
    refine (Keeps.liftM _).bind fun source => ?_
    cases source with
    | none => exact (note_keeps rfl).bind fun _ => addItems_keeps origin items library
    | some s =>
      dsimp only
      split
      · exact .throw _
      · exact addItems_keeps origin items _

theorem load_keeps (tree : FileTree) (p : Path) : Keeps Writes (Csl.load tree p) := by
  refine (Keeps.liftM _).bind fun v => Keeps.bind ?_ fun _ => (note_keeps rfl).bind fun _ => .pure _
  cases v with
  | array | object => exact (addItems_keeps _ _ _).bind fun _ => (note_keeps rfl).bind fun _ => .pure _
  | null | bool | int | float | string => exact .throw _

theorem loadTable_keeps (tree : FileTree) (p : Path) : Keeps Writes (JournalTable.load tree p) := by
  refine (Keeps.liftM _).bind fun v => ?_
  cases v with
  | array | object => exact (note_keeps rfl).bind fun _ => .pure _
  | null | bool | int | float | string => exact .throw _

/-- **What is loaded** is loaded from the files as they are, and all that lasts is kept. -/
theorem gives_loadLibrary {t : Text} {s s' : Session} {sources : Library} (h : Gives (loadLibrary t) s sources s') :
    (outcome (Csl.load s.tree (s.path t)) []).1 = .ok sources ∧ ∀ {P}, Session.Lasting P → P s → P s' := by
  have h := gives_get_bind.mp (gives_reporting h)
  exact ⟨gives_logging h, fun hP hs => (logging_keeps hP _).gives h hs⟩

theorem gives_loadJournals {o : Options} {s s' : Session} {user : Table Text} (h : Gives (loadJournals o) s user s') :
    ∀ {P}, Session.Lasting P → P s → P s' := by
  intro P hP hs
  unfold loadJournals at h
  split at h
  · obtain ⟨-, rfl⟩ := gives_pure.mp h
    exact hs
  · exact (logging_keeps hP _).gives (gives_get_bind.mp (gives_reporting h)) hs

end Running

/-- A run ends as the program does, with the status zero if it ends well. -/
theorem Session.runIn_eq (home : Option Text) (arguments : List Text) (tree : FileTree) (stdin : Text) :
    Session.runIn home arguments tree stdin =
      match outcome (Running.program arguments stdin) { tree, home } with
      | (.ok (), s) => (.status 0, s)
      | (.error e, s) => (e, s) := rfl

end Footcite
