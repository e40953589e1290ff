import Mathlib.Data.List.Nodup
import Mathlib.Data.List.Perm.Basic
import Scaffold.Proofs.Disk.Place
import Scaffold.Proofs.Sorting
import Scaffold.Proofs.Text.Order

/-!
# The order of what a disk holds

Where every location has one entry, the order in which the entries are listed leaves
no trace: every path leads where it led before, and a directory has the same files.
-/

namespace Scaffold

/-! ## Sorting by different keys -/

namespace Sorting

variable {α Key : Type}

/-- Items with different keys are sorted by them in one way, however they come. -/
theorem sort_eq_of_nodup (order : Key → Key → Ordering) [Std.TransCmp order]
    [Std.LawfulEqCmp order] (key : α → Key) {items others : List α}
    (different : (items.map key).Nodup) (same : items.Perm others) :
    sort (fun left right => order (key left) (key right)) items =
      sort (fun left right => order (key left) (key right)) others := by
  have : Std.TransCmp fun left right => order (key left) (key right) := transCmp_of_key order key
  refine List.Perm.eq_of_pairwise (fun left right one two first second => ?_)
    (pairwise_sort _ items) (pairwise_sort _ others)
    ((sort_perm _ items).trans (same.trans (sort_perm _ others).symm))
  have equal : key left = key right :=
    Std.LawfulEqCmp.eq_of_compare (Std.OrientedCmp.isLE_antisymm first second)
  have right : right ∈ items := same.mem_iff.mpr ((mem_sort _).mp two)
  exact List.inj_on_of_nodup_map different ((mem_sort _).mp one) right equal

end Sorting

namespace Disk

variable {disk other : Disk} {location : Location}

/-- Every location has one entry at most. -/
def IsMap (disk : Disk) : Prop :=
  (disk.entries.map Prod.fst).Nodup

instance (disk : Disk) : Decidable disk.IsMap :=
  inferInstanceAs (Decidable (List.Nodup _))

theorem find?_eq_some_iff {entries : List (Location × Entry)} {entry : Entry}
    (once : (entries.map Prod.fst).Nodup) :
    find? location entries = some entry ↔ (location, entry) ∈ entries := by
  induction entries with
  | nil => simp [find?]
  | cons item rest induction =>
      obtain ⟨place, present⟩ := item
      rw [List.map_cons, List.nodup_cons] at once
      rw [find?, List.mem_cons]
      by_cases same : place = location
      · subst same
        have absent : (place, entry) ∉ rest := fun member =>
          once.1 (List.mem_map.mpr ⟨_, member, rfl⟩)
        simp [absent, eq_comm]
      · rw [if_neg same, induction once.2]
        simp [Ne.symm same]

namespace IsMap

variable (isMap : disk.IsMap) (same : other.entries.Perm disk.entries)
include isMap same

theorem of_perm : other.IsMap :=
  (same.map Prod.fst).nodup_iff.mpr isMap

theorem entry?_eq (location : Location) : other.entry? location = disk.entry? location := by
  unfold entry?
  split
  · rfl
  · refine Option.ext fun entry => ?_
    rw [find?_eq_some_iff isMap, find?_eq_some_iff (isMap.of_perm same), same.mem_iff]

theorem walk_eq (components : List Text) :
    ∀ location, other.walk location components = disk.walk location components := by
  induction components with
  | nil => exact fun _ => rfl
  | cons component rest induction =>
      intro location
      simp only [walk, isMap.entry?_eq same, induction]

theorem content?_eq (location : Location) : other.content? location = disk.content? location := by
  rw [content?, content?, isMap.entry?_eq same]

theorem locate_eq (path : Text) : other.locate path = disk.locate path := by
  simp only [locate, isMap.walk_eq same, isMap.content?_eq same]

theorem isDirectory_eq (path : Text) : other.isDirectory path = disk.isDirectory path := by
  simp only [isDirectory, at?, isMap.locate_eq same, isMap.entry?_eq same]

omit isMap in
theorem filesIn_perm (directory : Location) :
    (other.filesIn directory).Perm (disk.filesIn directory) := by
  rw [filesIn_eq, filesIn_eq]
  exact same.filterMap _

end IsMap

theorem IsMap.nodup_filesBelow (isMap : disk.IsMap) (directory : Location) :
    ((disk.filesBelow directory).map Prod.fst).Nodup := by
  rw [filesBelow_eq, List.Nodup, List.pairwise_map, List.pairwise_filterMap]
  refine (List.pairwise_map.mp isMap).imp ?_
  intro left right different first inside second alsoInside same
  have here := fileBelow?_eq_some_iff.mp inside
  have there := fileBelow?_eq_some_iff.mp alsoInside
  exact different (by rw [here, there, same])

theorem IsMap.nodup_filesIn (isMap : disk.IsMap) (directory : Location) :
    ((disk.filesIn directory).map Prod.fst).Nodup := by
  rw [filesIn_eq, List.Nodup, List.pairwise_map, List.pairwise_filterMap]
  refine (List.pairwise_map.mp isMap).imp ?_
  intro left right different first inside second alsoInside same
  have here := (eq_append_of_fileIn? inside).1
  have there := (eq_append_of_fileIn? alsoInside).1
  exact different (by rw [here, there, same])

end Disk

end Scaffold
