import Footcite.Proofs.Journal.Notices
import Footcite.Proofs.Resolution.Steady

/-!
# Journals that are shared

Journals may be shared: by questions that are asked one after another, and by documents that are worked through one
after another at one desk (`Job.workAll`), of which some may fail midway and leave their answers behind. Neither
questions nor documents notice each other (`Journals.shared_as_new`).
-/

namespace Footcite

/-- A document to be worked through. -/
structure Job where
  library : Library
  offset : Int
  smallCaps : Bool := false
  text : Text

namespace Job

/-- The work on a document. -/
def work (job : Job) : Editing Processed := process job.library job.offset job.smallCaps job.text

/-- Works through documents one after another at one desk: how each ends, the notices aside, and the desk after the last.
What was done up to a failure stays done. -/
def workAll (k : Desk) : List Job → List (Except Failure Processed) × Desk
  | [] => ([], k)
  | job :: rest =>
    let (r, k) := outcome (Processed.withoutNotices <$> job.work) k
    let (more, k) := workAll k rest
    (r :: more, k)

variable {user bundled : Table Text}

/-- **Documents that share a desk** end as each does at a desk of its own. -/
theorem workAll_fst {k' : Desk} (hk' : k'.journals.Serves user bundled) :
    ∀ {k : Desk} (jobs : List Job), k.journals.Serves user bundled →
      (workAll k jobs).1 = jobs.map fun job => (outcome (Processed.withoutNotices <$> job.work) k').1
  | _, [], _ => rfl
  | _, job :: jobs, hk => by
    obtain ⟨r, hr⟩ : Editing.Steady user bundled (Processed.withoutNotices <$> job.work) := process_steady ..
    obtain ⟨k₁, ho, hk₁⟩ := hr _ hk
    obtain ⟨_, ho', _⟩ := hr k' hk'
    have hrest := workAll_fst hk' jobs hk₁
    simp only [workAll, List.map_cons, ho, ho', hrest]

end Job

/-- **What journals remember changes nothing.** Journals that are asked one question after another answer each as new
journals with the same tables answer it alone. They have then noted each name that some question leaves to the rules
once, in the order of the first such question, with its abbreviation by the rules. And documents that are worked through
one after another with these journals end, well or not, as each does with new ones. -/
theorem Journals.shared_as_new (user bundled : Table Text) (questions : List Question) (jobs : List Job)
    (log log' : List Event) :
    ((ofTables user bundled).askAll questions).1 =
        questions.map (fun q => ((ofTables user bundled).resolve q.name q.override).1) ∧
      ((ofTables user bundled).askAll questions).2.notices =
        ((questions.filterMap (leftToRules? (keyed user) (keyed bundled))).eraseDups.map fun name =>
          ⟨name, name.abbreviate⟩) ∧
      (Job.workAll ⟨((ofTables user bundled).askAll questions).2, log⟩ jobs).1 =
        jobs.map fun job => (outcome (Processed.withoutNotices <$> job.work) ⟨ofTables user bundled, log'⟩).1 := by
  have hnew := ofTables_serves user bundled
  obtain ⟨hserves, hnoted⟩ := Noted.askAll questions hnew (ofTables_noted user bundled)
  refine ⟨askAll_fst hnew hnew questions, hnoted.notices, ?_⟩
  exact Job.workAll_fst hnew jobs hserves

/-- Names that differ in case are noted apart, runs of blanks are no matter, and a blank short name is none. -/
example : ((Journals.ofTables [(" J. One ".toList, "J1".toList)] []).askAll
    [⟨"Law  Review".toList, none⟩, ⟨"J. ONE".toList, none⟩, ⟨"law Review".toList, some " ".toList⟩,
      ⟨"Law Review".toList, none⟩, ⟨"Tax Law".toList, some "T".toList⟩]).2.notices.map Notice.name =
    ["Law Review".toList, "law Review".toList] := by decide +kernel

end Footcite
