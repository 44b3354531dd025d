import Footcite.Proofs.Journal.Shared
import Footcite.Proofs.Journal.Named

/-!
# The notices of documents that share a desk

Where documents are worked through one after another at one desk, the journals note each name that is left to the rules
in one pass only (`Passes.noted`). A pass that succeeds reports all that was noted in it, and a pass that fails reports
nothing. So a name that a citation abbreviates by rule is reported exactly once, by the pass in which it came up first,
if that pass succeeded; if it failed, the name is never reported (`Job.reported_once`).
-/

namespace Footcite

open Journals

/-! ## Passes -/

/-- A pass over a document: the desk that it is begun at, how it ends, and the desk that it leaves. -/
structure Pass where
  before : Desk
  result : Except Failure Processed
  after : Desk

namespace Pass

/-- What the journals have noted during the pass. -/
def noted (p : Pass) : List Notice := p.after.journals.notices.drop p.before.journals.notices.length

/-- The notices that the pass reports. -/
def notices (p : Pass) : List Notice :=
  match p.result with
  | .ok r => r.resolution.notices
  | .error _ => []

/-- **A pass leads from the names that the journals have noted before it to those that they have noted after it.** None is
lost, and if the pass succeeds, its notices are what is new, and what its citations name by rule has been noted. -/
structure Leads (user bundled : Table Text) (names names' : List Text) (p : Pass) : Prop where
  before : p.before.journals.Keeps user bundled names
  after : p.after.journals.Keeps user bundled names'
  grows : names <+: names'
  reports : ∀ r, p.result = .ok r →
    r.resolution.notices = p.noted ∧ ∀ e ∈ r.resolution.citations, e.NotedIn user bundled names'

variable {user bundled : Table Text} {names names' : List Text} {p : Pass}

/-- What is noted comes after what has been noted before. -/
theorem Leads.noted (h : p.Leads user bundled names names') :
    names.eraseDups.map byRule ++ p.noted = names'.eraseDups.map byRule := by
  rw [← h.before.notices, ← h.after.notices]
  exact h.before.notices_grow h.after h.grows

/-- A pass reports nothing but what was noted. -/
theorem Leads.notices_sublist (h : p.Leads user bundled names names') : p.notices.Sublist p.noted := by
  unfold notices
  split
  · next r hr => rw [(h.reports r hr).1]
  · exact List.nil_sublist _

end Pass

namespace Job

variable {user bundled : Table Text} {names : List Text} {k : Desk}

/-- The pass over a document that is worked through. -/
def pass (k : Desk) (job : Job) : Pass :=
  let (result, after) := outcome job.work k
  ⟨k, result, after⟩

/-- The passes over documents that are worked through one after another at one desk. -/
def passAll (k : Desk) : List Job → List Pass
  | [] => []
  | job :: rest => job.pass k :: passAll (job.pass k).after rest

/-- The passes end as the documents do, the notices aside. -/
theorem passAll_results (k : Desk) (jobs : List Job) :
    (passAll k jobs).map (fun p => p.result.map Processed.withoutNotices) = (workAll k jobs).1 := by
  induction jobs generalizing k with
  | nil => rfl
  | cons job jobs ih =>
    simp only [passAll, List.map_cons, ih, workAll, outcome_map]
    rfl

/-- The pass over a document leads on from what has been noted, whether it succeeds or not. -/
theorem pass_leads (hk : k.journals.Keeps user bundled names) (job : Job) :
    ∃ names', (job.pass k).Leads user bundled names names' := by
  unfold pass
  rcases ho : outcome job.work k with ⟨e | p, k'⟩
  · -- What was noted up to the failure stays noted.
    obtain ⟨names', hgrows, hk'⟩ := process_keeping job.library job.offset job.smallCaps job.text k names hk
    have hafter : (outcome job.work k).2 = k' := congrArg Prod.snd ho
    exact ⟨names', hk, hafter ▸ hk', hgrows, by simp⟩
  · obtain ⟨names', hgrows, hk', hnamed, hnotices⟩ := process_notedIn hk ho
    refine ⟨names', hk, hk', hgrows, fun r hr => ?_⟩
    cases hr
    exact ⟨hnotices, hnamed⟩

end Job

/-! ## Passes one after another -/

/-- **Passes lead one after another** from the names that have been noted before them to those that have been noted after
them. -/
inductive Passes (user bundled : Table Text) : List Text → List Pass → List Text → Prop
  | done (names : List Text) : Passes user bundled names [] names
  | pass {names names₁ names' : List Text} {p : Pass} {ps : List Pass} :
      p.Leads user bundled names names₁ → Passes user bundled names₁ ps names' →
        Passes user bundled names (p :: ps) names'

namespace Passes

variable {user bundled : Table Text} {names names' : List Text} {ps qs : List Pass} {name : Text}

/-- So do those over documents that are worked through one after another. -/
theorem of_jobs : ∀ {k : Desk} {names : List Text}, k.journals.Keeps user bundled names → ∀ jobs : List Job,
    ∃ names', Passes user bundled names (Job.passAll k jobs) names'
  | _, names, _, [] => ⟨names, .done names⟩
  | _, _, hk, job :: jobs => by
    obtain ⟨names₁, hleads⟩ := Job.pass_leads hk job
    obtain ⟨names', hrest⟩ := of_jobs hleads.after jobs
    exact ⟨names', .pass hleads hrest⟩

/-- Passes and then others. -/
theorem append {names₁ : List Text} (h : Passes user bundled names ps names₁)
    (h' : Passes user bundled names₁ qs names') : Passes user bundled names (ps ++ qs) names' := by
  induction h with
  | done => exact h'
  | pass hleads _ ih => exact .pass hleads (ih h')

/-- Some passes and more are the ones and then the others. -/
theorem split : ∀ {ps : List Pass} {names : List Text}, Passes user bundled names (ps ++ qs) names' →
    ∃ names₁, Passes user bundled names ps names₁ ∧ Passes user bundled names₁ qs names'
  | [], names, h => ⟨names, .done names, h⟩
  | p :: ps, _, h => by
    cases h with
    | pass hleads hrest =>
      obtain ⟨names₁, hps, hqs⟩ := split hrest
      exact ⟨names₁, .pass hleads hps, hqs⟩

/-- **Each name is noted in one pass only**: what the passes note, one after another, are the notices of the names that
are new, each once. -/
theorem noted (h : Passes user bundled names ps names') :
    names.eraseDups.map byRule ++ ps.flatMap Pass.noted = names'.eraseDups.map byRule := by
  induction h with
  | done names => exact List.append_nil _
  | pass hleads _ ih => rw [List.flatMap_cons, ← List.append_assoc, hleads.noted, ih]

/-- The passes report nothing but what was noted. -/
theorem notices_sublist (h : Passes user bundled names ps names') :
    (ps.flatMap Pass.notices).Sublist (ps.flatMap Pass.noted) := by
  induction h with
  | done => exact List.nil_sublist _
  | pass hleads _ ih => exact hleads.notices_sublist.append ih

/-- What is not noted is not reported. -/
theorem notices_of_nil (h : Passes user bundled names ps names')
    (hnone : (ps.flatMap Pass.noted).filter (·.name = name) = []) :
    (ps.flatMap Pass.notices).filter (·.name = name) = [] :=
  List.sublist_nil.mp (hnone ▸ h.notices_sublist.filter _)

/-- **A name that is noted in a pass is reported by this pass only**: once if the pass succeeds, and never if it
fails. -/
theorem notices_of {first : Pass} (h : Passes user bundled [] ps names) (hfirst : first ∈ ps)
    (hnoted : byRule name ∈ first.noted) :
    (∀ r, first.result = .ok r → byRule name ∈ r.resolution.notices ∧
      (ps.flatMap Pass.notices).filter (·.name = name) = [byRule name]) ∧
    ∀ f, first.result = .error f → (ps.flatMap Pass.notices).filter (·.name = name) = [] := by
  have hall : ps.flatMap Pass.noted = names.eraseDups.map byRule := h.noted
  have hmem : name ∈ names := mem_byRule.mp (hall ▸ List.mem_flatMap.mpr ⟨first, hfirst, hnoted⟩)
  have hsingle := hall ▸ filter_byRule hmem
  obtain ⟨before, after, rfl⟩ := List.append_of_mem hfirst
  obtain ⟨_, hbefore, hrest⟩ := h.split
  cases hrest with
  | pass hleads hafter =>
    simp only [List.flatMap_append, List.flatMap_cons, List.filter_append] at hsingle ⊢
    have hsome : first.noted.filter (·.name = name) ≠ [] :=
      List.ne_nil_of_mem (List.mem_filter.mpr ⟨hnoted, decide_eq_true rfl⟩)
    -- The one notice of the name is that of this pass, and so the others have none.
    obtain ⟨hnone, hone, hnone'⟩ : (before.flatMap Pass.noted).filter (·.name = name) = [] ∧
        first.noted.filter (·.name = name) = [byRule name] ∧ (after.flatMap Pass.noted).filter (·.name = name) = [] := by
      rcases List.append_eq_singleton_iff.mp hsingle with ⟨hnone, hsingle⟩ | ⟨-, hnil⟩
      · rcases List.append_eq_singleton_iff.mp hsingle with ⟨hnil, -⟩ | ⟨hone, hnone'⟩
        · exact absurd hnil hsome
        · exact ⟨hnone, hone, hnone'⟩
      · exact absurd (List.append_eq_nil_iff.mp hnil).1 hsome
    rw [hbefore.notices_of_nil hnone, hafter.notices_of_nil hnone', List.nil_append, List.append_nil]
    refine ⟨fun r hr => ?_, fun f hf => ?_⟩
    · have hnotices := (hleads.reports r hr).1
      have hfirst : first.notices = first.noted := by rw [← hnotices, Pass.notices, hr]
      exact ⟨hnotices ▸ hnoted, hfirst ▸ hone⟩
    · have hfirst : first.notices = [] := by rw [Pass.notices, hf]
      rw [hfirst, List.filter_nil]

end Passes

/-- **A name that a citation abbreviates by rule is reported once, or got lost in a failure.** Among the passes up to the
one that the citation is from, one has noted the name. If this pass succeeded, its notices have the name with its
abbreviation by the rules, and of all notices of all passes that succeed no other has the name. If it failed, none
has. -/
theorem Job.reported_once {user bundled : Table Text} {log : List Event} {jobs : List Job} {earlier later : List Pass}
    {pass : Pass} {p : Processed} {e : Draft} {name : Text}
    (hpasses : passAll ⟨ofTables user bundled, log⟩ jobs = earlier ++ pass :: later) (hp : pass.result = .ok p)
    (he : e ∈ p.resolution.citations) (hname : e.journalByRule? (keyed user) (keyed bundled) = some name) :
    (Span.bold name.abbreviate).markdown <:+: e.text ∧
      ∃ first ∈ earlier ++ [pass], ⟨name, name.abbreviate⟩ ∈ first.noted ∧
        (∀ r, first.result = .ok r → ⟨name, name.abbreviate⟩ ∈ r.resolution.notices ∧
          ((earlier ++ pass :: later).flatMap Pass.notices).filter (·.name = name) = [⟨name, name.abbreviate⟩]) ∧
        ∀ f, first.result = .error f →
          ((earlier ++ pass :: later).flatMap Pass.notices).filter (·.name = name) = [] := by
  have hk : (⟨ofTables user bundled, log⟩ : Desk).journals.Keeps (keyed user) (keyed bundled) [] :=
    ofTables_keeps user bundled
  obtain ⟨names, hrun⟩ := Passes.of_jobs hk jobs
  rw [hpasses] at hrun
  obtain ⟨names₀, hearlier, hrest⟩ := hrun.split
  cases hrest with
  | @pass _ names₁ _ _ _ hleads _ =>
    obtain ⟨-, hnamed⟩ := hleads.reports p hp
    obtain ⟨hmem, hshown⟩ := hnamed e he name hname
    -- The name has been noted by the end of this pass, so in this one or in one before it.
    have hupto : (earlier ++ [pass]).flatMap Pass.noted = names₁.eraseDups.map byRule :=
      (hearlier.append (.pass hleads (.done names₁))).noted
    obtain ⟨first, hfirst, hnoted⟩ := List.mem_flatMap.mp (hupto ▸ mem_byRule.mpr hmem)
    have hfirst' : first ∈ earlier ++ pass :: later := List.append_cons .. ▸ List.mem_append_left later hfirst
    exact ⟨hshown, first, hfirst, hnoted, hrun.notices_of hfirst' hnoted⟩

/-- Documents that cite an article in a periodical. -/
def Job.inReview (texts : List Text) : List Job :=
  let article : Article := { container := some "Law Review", volume := some "1", page := some "2" }
  let library : Library := Table.ofEntries [("a", { id := "a", title := some "A", work := .article article })]
  texts.map fun text => { library, offset := 0, text }

/-- A pass that has no notices, and a citation of the article that abbreviates the periodical by rule. -/
def Pass.silent (p : Pass) : Bool := p.result.toOption.any fun r =>
  r.resolution.notices.isEmpty && r.resolution.citations.any fun e => e.journalByRule? [] [] = some "Law Review".toList

/-- What there is to a silent pass. -/
theorem Pass.exists_of_silent {pass : Pass} (h : pass.silent = true) : ∃ p e, pass.result = .ok p ∧
    p.resolution.notices = [] ∧ e ∈ p.resolution.citations ∧ e.journalByRule? [] [] = some "Law Review".toList := by
  obtain ⟨p, hp, hok⟩ := Except.exists_ok_that h
  simp only [Bool.and_eq_true, List.isEmpty_iff, List.any_eq_true, decide_eq_true_eq] at hok
  obtain ⟨hnotices, e, he, hname⟩ := hok
  exact ⟨p, e, hp, hnotices, he, hname⟩

/-- The article is cited in a document after one that fails for a source that is not there, and again in a third: that
one has nothing to report any more. -/
theorem Job.reported_once_before :
    ∃ earlier pass p e,
      passAll ⟨ofTables [] [], []⟩ (inReview ["^[[@z]]", "^[[@a]]", "^[[@a]]"]) = earlier ++ [pass] ∧
      pass.result = .ok p ∧ p.resolution.notices = [] ∧ e ∈ p.resolution.citations ∧
      e.journalByRule? [] [] = some "Law Review".toList ∧ ∃ first ∈ earlier ++ [pass], ∃ r, first.result = .ok r ∧
        byRule "Law Review" ∈ r.resolution.notices ∧
        ((earlier ++ [pass]).flatMap Pass.notices).filter (·.name = "Law Review".toList) = [byRule "Law Review"] := by
  let passes : List Pass := passAll ⟨ofTables [] [], []⟩ (inReview ["^[[@z]]", "^[[@a]]", "^[[@a]]"])
  have hsilent : passes.getLast?.any Pass.silent = true := by decide +kernel
  have hreported : (passes.flatMap Pass.notices).any (·.name = "Law Review".toList) = true := by decide +kernel
  obtain ⟨failed, pass, again, hpasses⟩ : ∃ failed pass again, passes = [failed, pass] ++ [again] := ⟨_, _, _, rfl⟩
  rw [hpasses] at hsilent hreported
  have hsilent : again.silent = true := hsilent
  obtain ⟨p, e, hp, hnotices, he, hname⟩ := Pass.exists_of_silent hsilent
  obtain ⟨-, first, hfirst, -, hreports, hlost⟩ := reported_once hpasses hp he hname
  refine ⟨[failed, pass], again, p, e, hpasses, hp, hnotices, he, hname, first, hfirst, ?_⟩
  cases hr : first.result with
  | ok r => exact ⟨r, rfl, hreports r hr⟩
  | error f =>
    obtain ⟨n, hn, hname⟩ := List.any_eq_true.mp hreported
    exact absurd hname (List.filter_eq_nil_iff.mp (hlost f hr) n hn)

/-- **A name that comes up first in a pass that fails is lost**: the document fails after the article has been cited, and
when another cites it again, the name is no longer new. -/
theorem Job.lost_in_failure :
    ∃ failed pass p e, passAll ⟨ofTables [] [], []⟩ (inReview ["^[[@a]]^[[@z]]", "^[[@a]]"]) = [failed, pass] ∧
      failed.result = .error (.unknownSource "z" 2) ∧ pass.result = .ok p ∧ e ∈ p.resolution.citations ∧
      e.journalByRule? [] [] = some "Law Review".toList ∧ [failed, pass].flatMap Pass.notices = [] := by
  let passes : List Pass := passAll ⟨ofTables [] [], []⟩ (inReview ["^[[@a]]^[[@z]]", "^[[@a]]"])
  have hfailed : (passes.head?.map fun p => p.result.map fun _ => ()) = some (.error (.unknownSource "z" 2)) := by
    decide +kernel
  have hsilent : passes.getLast?.any Pass.silent = true := by decide +kernel
  obtain ⟨failed, pass, hpasses⟩ : ∃ failed pass, passes = [failed, pass] := ⟨_, _, rfl⟩
  rw [hpasses] at hfailed hsilent
  have hfailed := Except.eq_error_of_map (Option.some.inj hfailed)
  have hsilent : pass.silent = true := hsilent
  obtain ⟨p, e, hp, hnotices, he, hname⟩ := Pass.exists_of_silent hsilent
  refine ⟨failed, pass, p, e, hpasses, hfailed, hp, he, hname, ?_⟩
  simp [Pass.notices, hfailed, hp, hnotices]

end Footcite
