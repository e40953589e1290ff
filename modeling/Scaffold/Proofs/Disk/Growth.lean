import Scaffold.Go.SourceName
import Scaffold.Proofs.Disk.Tree

/-!
# What writing source files does to a disk

Making directories and writing source files keeps every directory, and every
file that is no source file.  A tree stays a tree.
-/

namespace Scaffold

namespace Disk

/-- The last name of a location is that of a source file or of a test. -/
def IsSource (location : Location) : Prop :=
  ∃ parent name, location = parent ++ [name] ∧ Text.endsWith Go.sourceSuffix name = true

/-- What a disk can become where source files are written. -/
structure GrowsTo (before after : Disk) : Prop where
  directories : ∀ location, before.entry? location = some .directory →
    after.entry? location = some .directory
  others : ∀ location, ¬ IsSource location → after.content? location = before.content? location
  tree : after.IsTree

theorem GrowsTo.refl {disk : Disk} (tree : disk.IsTree) : disk.GrowsTo disk :=
  ⟨fun _ directory => directory, fun _ _ => rfl, tree⟩

theorem GrowsTo.trans {first second third : Disk} (left : first.GrowsTo second)
    (right : second.GrowsTo third) : first.GrowsTo third where
  directories location directory :=
    right.directories location (left.directories location directory)
  others location other := (right.others location other).trans (left.others location other)
  tree := right.tree

/-! ## New entries -/

theorem isTree_put {disk : Disk} (tree : disk.IsTree) {location : Location} {entry : Entry}
    (inside : location ≠ []) (parent : disk.entry? location.dropLast = some .directory)
    (kept : disk.entry? location = some .directory → entry = .directory) :
    (disk.put location entry).IsTree := by
  have directory {other : Location} (known : disk.entry? other = some .directory) :
      Disk.entry? (disk.put location entry) other = some .directory := by
    rw [entry?_put inside]
    split
    · rename_i same
      rw [kept (same ▸ known)]
    · exact known
  intro other notRoot present
  by_cases same : other = location
  · rw [same]
    exact directory parent
  · rw [entry?_put inside, if_neg same] at present
    exact directory (tree other notRoot present)

theorem growsTo_put_directory {disk : Disk} (tree : disk.IsTree) {location : Location}
    (missing : disk.entry? location = none)
    (parent : disk.entry? location.dropLast = some .directory) :
    disk.GrowsTo (disk.put location .directory) := by
  have inside : location ≠ [] := ne_nil_of_missing missing
  refine ⟨?_, ?_, isTree_put tree inside parent fun _ => rfl⟩
  · intro other directory
    rw [entry?_put inside]
    split
    · rfl
    · exact directory
  · intro other _
    by_cases same : other = location
    · rw [same, content?_of_missing missing, content?_of_directory]
      rw [entry?_put inside, if_pos rfl]
    · exact content?_put inside _ disk same

theorem growsTo_put_file {disk : Disk} (tree : disk.IsTree) {location : Location}
    (source : IsSource location) (noDirectory : disk.entry? location ≠ some .directory)
    (parent : disk.entry? location.dropLast = some .directory) (content : Bytes) :
    disk.GrowsTo (disk.put location (.file content)) := by
  have inside : location ≠ [] := by
    obtain ⟨parent, name, rfl, _⟩ := source
    simp
  refine ⟨?_, ?_, isTree_put tree inside parent fun directory => absurd directory noDirectory⟩
  · intro other directory
    have different : other ≠ location := fun same => noDirectory (same ▸ directory)
    rw [entry?_put inside, if_neg different, directory]
  · intro other noSource
    have different : other ≠ location := fun same => noSource (same ▸ source)
    exact content?_put inside _ disk different

/-! ## Directories -/

theorem IsTree.directory_dropLast {disk : Disk} (tree : disk.IsTree) {location : Location}
    (directory : disk.entry? location = some .directory) :
    disk.entry? location.dropLast = some .directory := by
  by_cases root : location = []
  · rw [root]
    exact disk.entry?_nil
  · exact tree location root (by rw [directory]; simp)

theorem growsTo_of_makeOne {disk made : Disk} (tree : disk.IsTree) {components : List Text}
    (result : disk.makeOne components = .ok made) : disk.GrowsTo made := by
  unfold makeOne at result
  split at result
  · simp at result
  · rename_i location walked
    split at result
    · simp at result
    · rename_i missing
      have same : disk.put location .directory = made := Except.ok.inj result
      subst same
      apply growsTo_put_directory tree missing
      rcases List.eq_nil_or_concat components with rfl | ⟨parents, last, rfl⟩
      · rw [← Except.ok.inj walked, entry?_nil] at missing
        exact absurd missing (by simp)
      · rw [List.concat_eq_append, walk_append_eq_ok_iff] at walked
        obtain ⟨parent, _, directory, rfl⟩ := walked
        unfold stepTo
        split
        · exact tree.directory_dropLast (tree.directory_dropLast directory)
        · rwa [List.dropLast_concat]

theorem growsTo_of_orPresent {disk made : Disk} (tree : disk.IsTree) {components : List Text}
    (result : disk.orPresent components (disk.makeOne components) = .ok made) :
    disk.GrowsTo made := by
  cases one : disk.makeOne components with
  | ok found =>
      rw [one, orPresent, Except.ok.injEq] at result
      exact growsTo_of_makeOne tree (result ▸ one)
  | error fault =>
      rw [one, orPresent] at result
      split at result
      · rw [← Except.ok.inj result]
        exact GrowsTo.refl tree
      · simp at result

theorem growsTo_of_makeAll (components : List Text) :
    ∀ {disk made : Disk}, disk.IsTree → disk.makeAll components = .ok made →
      disk.GrowsTo made := by
  induction components with
  | nil =>
      intro disk made tree result
      rw [makeAll, Except.ok.injEq] at result
      exact result ▸ GrowsTo.refl tree
  | cons last parents induction =>
      intro disk made tree result
      rw [makeAll] at result
      split at result
      · split at result
        · simp at result
        · rename_i prepared before
          have first := induction tree before
          exact first.trans (growsTo_of_orPresent first.tree result)
      · exact growsTo_of_orPresent tree result

theorem growsTo_of_makeDirectories {disk made : Disk} (tree : disk.IsTree) {path : Text}
    (result : disk.makeDirectories path = .ok made) : disk.GrowsTo made := by
  unfold makeDirectories at result
  split at result
  · simp at result
  · exact growsTo_of_makeAll _ tree result

/-! ## Files -/

/-- The last component of the path ends like the name of a source file. -/
def LeadsToSource (path : Text) : Prop :=
  ∃ parts last, Path.components path = parts ++ [last ++ Go.sourceSuffix]

theorem leadsToSource_of_endsWith {path : Text}
    (source : Text.endsWith Go.sourceSuffix path = true) : LeadsToSource path := by
  have proper : Path.IsComponent Go.sourceSuffix := by
    refine ⟨?_, ?_, ?_⟩ <;> decide
  have undotted : ∀ start, start ++ Go.sourceSuffix ≠ Path.here := by
    intro start same
    have sizes := congrArg List.length same
    rw [List.length_append] at sizes
    simp [Go.sourceSuffix, Path.here] at sizes
  exact Path.exists_components_of_endsWith proper undotted source

theorem isSource_of_walk {disk : Disk} {path : Text} {location : Location}
    (source : LeadsToSource path)
    (walked : disk.walk [] (Path.components path) = .ok location) : IsSource location := by
  obtain ⟨parts, last, split⟩ := source
  rw [split, walk_append_eq_ok_iff] at walked
  obtain ⟨parent, _, _, rfl⟩ := walked
  have notUp : last ++ Go.sourceSuffix ≠ Path.up := by
    intro same
    have sizes := congrArg List.length same
    rw [List.length_append] at sizes
    simp [Go.sourceSuffix, Path.up] at sizes
  rw [stepTo, if_neg notUp]
  exact ⟨parent, _, rfl, List.isSuffixOf_iff_suffix.mpr (List.suffix_append _ _)⟩

/-- A file is written exactly if its path may lead to a file, in a directory
that is there, where no directory stands. -/
theorem write_eq_ok_iff {disk written : Disk} {path : Text} {content : Bytes} :
    disk.write path content = .ok written ↔
      mayBeFile path = true ∧ ∃ location,
        disk.walk [] (Path.components path) = .ok location ∧
          disk.entry? location ≠ some .directory ∧
          disk.entry? location.dropLast = some .directory ∧
          written = disk.put location (.file content) := by
  unfold write writeAs mayBeFile
  cases holdsNull path with
  | true => simp
  | false =>
      cases disk.walk [] (Path.components path) with
      | error fault => simp
      | ok location =>
          by_cases directory : disk.entry? location = some .directory
          · simp [holdsDirectory, directory]
          · by_cases parent : disk.entry? location.dropLast = some .directory
            · cases endsInSlash path <;> cases endsInDot path <;>
                simp [holdsDirectory, directory, parent, eq_comm (a := written)]
            · simp [holdsDirectory, directory, parent]

theorem growsTo_of_write {disk written : Disk} (tree : disk.IsTree) {path : Text}
    {content : Bytes} (source : LeadsToSource path)
    (result : disk.write path content = .ok written) : disk.GrowsTo written := by
  obtain ⟨_, location, walked, noDirectory, parent, rfl⟩ := write_eq_ok_iff.mp result
  exact growsTo_put_file tree (isSource_of_walk source walked) noDirectory parent content

/-! ## What stays reachable -/

theorem GrowsTo.walk {before after : Disk} (grown : before.GrowsTo after)
    {components : List Text} :
    ∀ {location last}, before.walk location components = .ok last →
      after.walk location components = .ok last := by
  induction components with
  | nil => exact fun walked => walked
  | cons component rest induction =>
      intro location last walked
      obtain ⟨directory, later⟩ := walk_cons_eq_ok_iff.mp walked
      exact walk_cons_eq_ok_iff.mpr ⟨grown.directories location directory, induction later⟩

theorem GrowsTo.fileAt? {before after : Disk} (tree : before.IsTree)
    (grown : before.GrowsTo after) {path : Text} (noUp : Path.up ∉ Path.components path)
    (other : ¬ IsSource (Path.components path)) :
    after.fileAt? path = before.fileAt? path := by
  apply Option.ext
  intro content
  rw [grown.tree.fileAt?_eq_some_iff noUp, tree.fileAt?_eq_some_iff noUp,
    grown.others _ other]

theorem fileAt?_of_write {disk written : Disk} (tree : disk.IsTree) {path : Text}
    {content : Bytes} (source : LeadsToSource path)
    (result : disk.write path content = .ok written) : written.fileAt? path = some content := by
  have grown := growsTo_of_write tree source result
  obtain ⟨possible, location, walked, noDirectory, _, rfl⟩ := write_eq_ok_iff.mp result
  have inside : location ≠ [] := ne_nil_of_noDirectory noDirectory
  refine fileAt?_eq_some_iff.mpr ⟨possible, location, grown.walk walked, ?_⟩
  rw [content?_eq_some_iff, entry?_put inside, if_pos rfl]

end Disk

end Scaffold
