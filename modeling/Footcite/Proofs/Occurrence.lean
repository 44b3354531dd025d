import Footcite.Note.Step

/-!
# Occurrences

The form of a citation depends on the mentions and breakers that are read before it (`Occurrence`). Those of a note are
listed from its segments alone, a mention before what its parenthetical holds (`Note.occurrences`). The steps of a note
come to the same mentions and breakers in the same order (`Note.steps_occurrences`), and the mentions among them are
those of the note (`Note.sites_mention`).
-/

namespace Footcite

/-- A mention at its place. -/
structure Site where
  /-- The note that holds the mention. -/
  note : Note
  mention : Mention
  /-- The parenthetical of the mention, if it holds no tokens. -/
  parenthetical : Option Text

/-- What the form of a later citation depends on. -/
inductive Occurrence
  | mention (x : Site)
  /-- A breaker in a note. -/
  | breaker (n : Note)

/-- The mention of an occurrence. -/
def Occurrence.site? : Occurrence → Option Site
  | .mention x => some x
  | .breaker _ => none

mutual

/-- The occurrences in a segment of a note in reading order, a mention before those of its parenthetical. -/
def Segment.occurrences (n : Note) : Segment → List Occurrence
  | .mention m inner =>
    .mention ⟨n, m, if inner.isEmpty then m.parenthetical else none⟩ :: Segment.allOccurrences n inner
  | .breaker _ => [.breaker n]
  | .text _ | .anchor _ | .use _ => []

/-- The occurrences in several segments of a note. -/
def Segment.allOccurrences (n : Note) : List Segment → List Occurrence
  | [] => []
  | s :: rest => s.occurrences n ++ Segment.allOccurrences n rest

end

namespace Note

/-- The occurrences in a note in reading order. -/
def occurrences (n : Note) : List Occurrence := Segment.allOccurrences n n.segments

/-- The mentions of a note at their places. -/
def sites (n : Note) : List Site := n.occurrences.filterMap Occurrence.site?

/-- The occurrences in notes, note by note. -/
def allOccurrences (notes : List Note) : List Occurrence := notes.flatMap occurrences

/-- The mentions of notes at their places, note by note. -/
def allSites (notes : List Note) : List Site := (allOccurrences notes).filterMap Occurrence.site?

theorem allSites_eq (notes : List Note) : allSites notes = notes.flatMap sites := by
  simp only [allSites, allOccurrences, List.filterMap_flatMap]
  rfl

end Note

/-! ## The steps of a note -/

/-- The occurrence that a step in a note works on. -/
def Step.occurrence? (n : Note) : Step → Option Occurrence
  | .cite m p _ => some (.mention ⟨n, m, p⟩)
  | .interrupt => some (.breaker n)
  | .text _ | .use _ => none

mutual

theorem Segment.steps_occurrences (n : Note) (before : List Segment) :
    ∀ s : Segment, (s.steps before).filterMap (Step.occurrence? n) = s.occurrences n
  | .text _ => rfl
  | .mention _ [] => rfl
  | .mention m (s :: inner) => by
    have h := Segment.allSteps_occurrences n [.text "("] (s :: inner)
    simp only [Segment.steps, Segment.occurrences, List.filterMap_cons, List.filterMap_append, Step.occurrence?, h]
    simp
  | .breaker _ => rfl
  | .anchor _ => rfl
  | .use _ => rfl

theorem Segment.allSteps_occurrences (n : Note) (before : List Segment) :
    ∀ segments : List Segment,
      (Segment.allSteps before segments).filterMap (Step.occurrence? n) = Segment.allOccurrences n segments
  | [] => rfl
  | s :: rest => by
    simp only [Segment.allSteps, Segment.allOccurrences, List.filterMap_append]
    rw [Segment.steps_occurrences n before s, Segment.allSteps_occurrences n (s :: before) rest]

end

/-- Working through a note comes to its occurrences in reading order. -/
theorem Note.steps_occurrences (n : Note) : n.steps.filterMap (Step.occurrence? n) = n.occurrences :=
  Segment.allSteps_occurrences n [] n.segments

/-! ## The mentions of a note -/

mutual

theorem Segment.occurrences_site (n : Note) :
    ∀ s : Segment, (s.occurrences n).filterMap (fun o => o.site?.map fun x => (x.note, x.mention)) =
      s.mentions.map fun m => (n, m)
  | .text _ => rfl
  | .mention m inner => by
    rw [Segment.mentions, List.map_cons, ← Segment.allOccurrences_site n inner]
    rfl
  | .breaker _ => rfl
  | .anchor _ => rfl
  | .use _ => rfl

theorem Segment.allOccurrences_site (n : Note) :
    ∀ segments : List Segment, (Segment.allOccurrences n segments).filterMap
      (fun o => o.site?.map fun x => (x.note, x.mention)) = (Segment.allMentions segments).map fun m => (n, m)
  | [] => rfl
  | s :: rest => by
    simp only [Segment.allOccurrences, Segment.allMentions, List.filterMap_append, List.map_append]
    rw [Segment.occurrences_site n s, Segment.allOccurrences_site n rest]

end

/-- The mentions of a note at their places are its mentions, each in this note. -/
theorem Note.sites_mention (n : Note) :
    n.sites.map (fun x => (x.note, x.mention)) = n.mentions.map fun m => (n, m) := by
  rw [Note.sites, List.map_filterMap]
  exact Segment.allOccurrences_site n n.segments

/-- A mention at its place is a mention of its note. -/
theorem Note.mem_sites {n : Note} {x : Site} (h : x ∈ n.sites) : x.note = n ∧ x.mention ∈ n.mentions := by
  have hx : (x.note, x.mention) ∈ n.mentions.map fun m => (n, m) := by
    rw [← n.sites_mention]
    exact List.mem_map_of_mem h
  obtain ⟨m, hm, he⟩ := List.mem_map.mp hx
  cases he
  exact ⟨rfl, hm⟩

/-- A mention of notes stands in one of them. -/
theorem Note.mem_allSites {notes : List Note} {x : Site} (h : x ∈ Note.allSites notes) :
    x.note ∈ notes ∧ x.mention ∈ x.note.mentions := by
  rw [Note.allSites_eq] at h
  obtain ⟨n, hn, hx⟩ := List.mem_flatMap.mp h
  obtain ⟨rfl, hm⟩ := Note.mem_sites hx
  exact ⟨hn, hm⟩

end Footcite
