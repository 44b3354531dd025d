import Footcite.Files.Tree
import Footcite.Proofs.Files.Places
import Footcite.Proofs.Table

/-!
# What a change to the files leaves

A path that leads to a file, or to where one could be, leads to its place by name (`FileTree.find_spot`), whatever
directories it goes through. A change makes a file where there was a file or nothing (`FileTree.change_ok`), so every
directory stays one. Hence a path that led to a file still leads to it afterwards: the file is changed if the two paths
lead to one place, and is as it was if they do not (`FileTree.find_change`).
-/

namespace Footcite

/-- Where a file is or could be: its name, and the bytes of the file if there is one. -/
def Destination.spot : Destination → Option (Text × Option (List UInt8))
  | .file name bytes => some (name, some bytes)
  | .vacant name => some (name, none)
  | .directory | .astray | .blocked | .overlong | .unnameable => none

theorem Destination.file_of_spot {d : Destination} {name : Text} {bytes : List UInt8}
    (h : d.spot = some (name, some bytes)) : d = .file name bytes := by
  cases d <;> cases h
  rfl

namespace FileTree

variable {tree tree' : FileTree} {home : Option (List Text)} {w : Place} {parts : List Text} {p i : Path}
  {key name : Text} {node n : FileNode} {old : Option (List UInt8)} {bytes : List UInt8}
  {f : List UInt8 → List UInt8}

/-! ## Where a path leads -/

/-- What is not a directory is looked up by the name of its place. -/
theorem node?_of_nodeAt? (h : tree.nodeAt? home w ≠ some .directory) : tree.node? w.name = tree.nodeAt? home w := by
  unfold nodeAt? at h ⊢
  split
  · next hhome => exact absurd (if_pos hhome) h
  · rfl

/-- A spot that parts lead to has the name of the place that they lead to. -/
theorem follow_spot (h : (tree.follow home w parts).spot = some (name, old)) :
    name = (parts.foldl (Place.step home) w).name ∧ tree.node? name = old.map .file := by
  induction parts generalizing w with
  | nil => cases h
  | cons part rest ih =>
    rw [List.foldl_cons]
    unfold follow at h
    split at h
    · next hup =>
      rw [Place.step, if_pos hup]
      exact ih h
    · next hup =>
      rw [Place.step, if_neg hup]
      split at h
      · cases h
      · simp only at h
        split at h
        · exact ih h
        · next hnode =>
          cases h
          exact ⟨rfl, (node?_of_nodeAt? (by simp [hnode])).trans hnode⟩
        · cases h
        · next hnode =>
          cases h
          exact ⟨rfl, (node?_of_nodeAt? (by simp [hnode])).trans hnode⟩
        · cases h

/-- What a path leads to is found by following its parts, if it is found at all. -/
theorem find_of_spot (h : (tree.find p).spot ≠ none) : tree.find p = tree.follow p.home p.start p.parts := by
  unfold find at h ⊢
  split
  · next hnul => exact absurd (by rw [if_pos hnul]; rfl) h
  · next hnul =>
    rw [if_neg hnul] at h
    split
    · next hlong => exact absurd (by rw [if_pos hlong]; rfl) h
    · rfl

/-- **A spot that a path leads to** has the name of the place that the path leads to. -/
theorem find_spot (h : (tree.find p).spot = some (name, old)) :
    name = p.place.name ∧ tree.node? name = old.map .file := by
  rw [find_of_spot (by simp [h])] at h
  exact follow_spot h

theorem find_file (h : tree.find p = .file name bytes) :
    name = p.place.name ∧ tree.node? name = some (.file bytes) := by
  have hspot : (tree.find p).spot = some (name, some bytes) := by
    rw [h]
    rfl
  exact find_spot hspot

/-! ## Changes -/

/-- A change makes a file at the spot that the path leads to. -/
theorem change_ok (h : tree.change p f = .ok tree') :
    ∃ name old, (tree.find p).spot = some (name, old) ∧ tree' = tree.set name (.file (f (old.getD []))) := by
  unfold change at h
  split at h
  · next name bytes hfind =>
    cases h
    exact ⟨name, some bytes, by rw [hfind]; rfl, rfl⟩
  · next name hfind =>
    cases h
    exact ⟨name, none, by rw [hfind]; rfl, rfl⟩
  all_goals cases h

theorem change_of_spot (h : (tree.find p).spot = some (name, old)) :
    tree.change p f = .ok (tree.set name (.file (f (old.getD [])))) := by
  unfold change
  cases hfind : tree.find p <;> rw [hfind] at h <;> cases h <;> rfl

/-- A key that begins with a name and a slash still does so when a key is set. -/
theorem any_isPrefixOf_set (h : tree.any (fun (k, _) => (name ++ ['/']).isPrefixOf k) = true) :
    (tree.set key n).any (fun (k, _) => (name ++ ['/']).isPrefixOf k) = true := by
  obtain ⟨⟨k, _⟩, hmem, hprefix⟩ := List.any_eq_true.mp h
  have hkeys : k ∈ (tree.set key n).keys := by
    have hk : k ∈ Table.keys tree := List.mem_map_of_mem hmem
    rw [Table.keys_set]
    split
    · exact hk
    · exact List.mem_append_left _ hk
  obtain ⟨⟨_, v⟩, hv, rfl⟩ := List.mem_map.mp hkeys
  exact List.any_eq_true.mpr ⟨_, hv, hprefix⟩

/-- What was there is still there when a key is set, but at that key. -/
theorem node?_set (h : tree.node? name = some node) :
    node? (tree.set key n) name = some (if key = name then n else node) := by
  unfold node? at h ⊢
  rw [Table.get?_set]
  by_cases hkey : key = name
  · rw [if_pos hkey, if_pos hkey]
  · rw [if_neg hkey, if_neg hkey]
    cases hget : Table.get? tree name with
    | some n' =>
      rw [hget] at h
      exact h
    | none =>
      rw [hget] at h
      simp only at h ⊢
      split at h
      · next hany =>
        rw [if_pos (any_isPrefixOf_set hany)]
        exact h
      · cases h

/-- What is set is there. -/
theorem node?_set_self : node? (tree.set key n) key = some n := by
  unfold node?
  rw [Table.get?_set, if_pos rfl]

/-- A directory stays one when a file is made where no directory was. -/
theorem nodeAt?_set_of_directory (hkey : tree.node? key ≠ some .directory) (h : tree.nodeAt? home w = some .directory) :
    nodeAt? (tree.set key n) home w = some .directory := by
  unfold nodeAt? at h ⊢
  split
  · rfl
  · next hhome =>
    rw [if_neg hhome] at h
    have hne : key ≠ w.name := fun he => hkey (he ▸ h)
    rw [node?_set h, if_neg hne]

/-- A file that is made where no directory was is there. -/
theorem nodeAt?_set_self (h : tree.nodeAt? home w ≠ some .directory) :
    nodeAt? (tree.set w.name n) home w = some n := by
  unfold nodeAt? at h ⊢
  split
  · next hhome => exact absurd (if_pos hhome) h
  · exact node?_set_self

/-- **A file that parts lead to** is led to when a file is made where no directory was. -/
theorem follow_set (hkey : tree.node? key ≠ some .directory) {new : List UInt8}
    (h : tree.follow home w parts = .file name bytes) :
    follow (tree.set key (.file new)) home w parts = .file name (if key = name then new else bytes) := by
  have hfile {v : Place} (hv : tree.nodeAt? home v = some (.file bytes)) :
      nodeAt? (tree.set key (.file new)) home v = some (.file (if key = v.name then new else bytes)) := by
    unfold nodeAt? at hv ⊢
    split at hv
    · cases hv
    · next hhome =>
      rw [if_neg hhome, node?_set hv]
      split <;> rfl
  induction parts generalizing w with
  | nil => cases h
  | cons part rest ih =>
    unfold follow at h ⊢
    split at h
    · next hup =>
      rw [if_pos hup]
      exact ih h
    · next hup =>
      rw [if_neg hup]
      split at h
      · cases h
      · next hlong =>
        rw [if_neg hlong]
        simp only at h ⊢
        split at h
        · next hnode =>
          rw [nodeAt?_set_of_directory hkey hnode]
          exact ih h
        · next hnode =>
          cases h
          rw [hfile hnode]
        all_goals cases h

/-- **A spot that parts lead to** holds the file that is made there. -/
theorem follow_set_self (h : (tree.follow home w parts).spot = some (key, old)) (new : List UInt8) :
    follow (tree.set key (.file new)) home w parts = .file key new := by
  have hkey : tree.node? key ≠ some .directory := by
    rw [(follow_spot h).2]
    cases old <;> simp
  induction parts generalizing w with
  | nil => cases h
  | cons part rest ih =>
    unfold follow at h ⊢
    split at h
    · next hup =>
      rw [if_pos hup]
      exact ih h
    · next hup =>
      rw [if_neg hup]
      split at h
      · cases h
      · next hlong =>
        rw [if_neg hlong]
        simp only at h ⊢
        split at h
        · next hnode =>
          rw [nodeAt?_set_of_directory hkey hnode]
          exact ih h
        all_goals cases h
        all_goals
          next hnode =>
          rw [nodeAt?_set_self (by simp [hnode])]

/-- A file that is found is found when a file is made where no directory was. -/
theorem find_set (hkey : tree.node? key ≠ some .directory) {new : List UInt8} (h : tree.find i = .file name bytes) :
    find (tree.set key (.file new)) i = .file name (if key = name then new else bytes) := by
  unfold find at h ⊢
  split at h
  · cases h
  · next hnul =>
    rw [if_neg hnul]
    split at h
    · cases h
    · next hlong =>
      rw [if_neg hlong]
      exact follow_set hkey h

/-- A path leads to the file that is made at its spot. -/
theorem find_set_self (h : (tree.find p).spot = some (key, old)) (new : List UInt8) :
    find (tree.set key (.file new)) p = .file key new := by
  have hfind : tree.find p = tree.follow p.home p.start p.parts := find_of_spot (by simp [h])
  have hfollow := follow_set_self (hfind ▸ h) new
  unfold find at h ⊢
  split at h
  · cases h
  · next hnul =>
    rw [if_neg hnul]
    split at h
    · cases h
    · next hlong =>
      rw [if_neg hlong]
      exact hfollow

/-- A file that is found is found after a change. -/
theorem exists_find_change (hfile : tree.find i = .file name bytes) (h : tree.change p f = .ok tree') :
    ∃ bytes', tree'.find i = .file name bytes' := by
  obtain ⟨key, old, hspot, rfl⟩ := change_ok h
  exact ⟨_, find_set (by rw [(find_spot hspot).2]; cases old <;> simp) hfile⟩

/-- **A change reaches a file** exactly if the paths lead to one place; another file is as it was. -/
theorem find_change (hp : p.place.Plain) (hi : i.place.Plain) (hfile : tree.find i = .file name bytes)
    (h : tree.change p f = .ok tree') :
    tree'.find i = .file name (if p.place = i.place then f bytes else bytes) := by
  obtain ⟨key, old, hspot, rfl⟩ := change_ok h
  obtain ⟨hkey, hnode⟩ := find_spot hspot
  obtain ⟨hname, hthere⟩ := find_file hfile
  rw [find_set (by cases old <;> simp [hnode]) hfile]
  by_cases hplace : p.place = i.place
  · -- The two paths lead to one file, the bytes of which are the bytes that were found there.
    have hsame : key = name := by rw [hkey, hname, hplace]
    subst hsame
    have hold : old = some bytes := by
      rw [hthere] at hnode
      cases old <;> simp_all
    rw [if_pos rfl, if_pos hplace, hold, Option.getD_some]
  · have hother : key ≠ name := fun he =>
      hplace (Place.name_injective hp hi (by rw [← hkey, ← hname, he]))
    rw [if_neg hother, if_neg hplace]

/-- **What is written twice at a path**: a file is there after the first writing, and the second adds to what it did. -/
theorem change_change (h : tree.change p f = .ok tree') :
    (∃ name bytes, tree'.find p = .file name bytes) ∧ ∀ g, tree'.change p g = tree.change p (g ∘ f) := by
  obtain ⟨name, old, hspot, rfl⟩ := change_ok h
  have hfind := find_set_self hspot (f (old.getD []))
  refine ⟨⟨name, _, hfind⟩, fun g => ?_⟩
  rw [change_of_spot hspot, change_of_spot (by rw [hfind]; rfl), Table.set_set]
  rfl

/-- A path that leads to no file does not lead to the place of one, if something can be written there. -/
theorem place_ne_of_not_has (hfile : tree.find i = .file name bytes) (hhas : tree.has p = .ok false)
    (h : tree.change p f = .ok tree') : p.place ≠ i.place := by
  intro hplace
  obtain ⟨key, old, hspot, rfl⟩ := change_ok h
  obtain ⟨hkey, hnode⟩ := find_spot hspot
  obtain ⟨hname, hthere⟩ := find_file hfile
  rw [hkey, hplace, ← hname, hthere] at hnode
  cases old with
  | none => cases hnode
  | some bytes' =>
    rw [has, Destination.file_of_spot hspot] at hhas
    cases hhas

end FileTree

end Footcite
