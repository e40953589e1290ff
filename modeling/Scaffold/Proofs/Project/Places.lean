import Mathlib.Data.List.Nodup
import Scaffold.Project.Setup
import Scaffold.Proofs.Contract.Names
import Scaffold.Proofs.Disk.Place
import Scaffold.Proofs.Path.Normal
import Scaffold.Proofs.Project.Growth
import Scaffold.Proofs.Settings.Keys

/-!
# Where a run writes

Everything that a run writes stands in the implementation directory.  Each
package has its own directory there, at the end of the way that leads to the
package from the directory of the contracts, and the registry stands directly
inside.
-/

namespace Scaffold

open Path (IsComponent)

/-! ## Projects of validated settings -/

namespace Project

/-- The shape that set-up and validation give to the paths of a project. -/
structure IsValid (project : Project) : Prop where
  root : ∃ current path, project.settings.root = Path.resolve current path
  api : ∃ path, project.settings.apiDirectory = Path.normalize path
  implementation : ∃ path, project.settings.implementationDirectory = Path.normalize path
  registry : Settings.isRegistryName (.text project.settings.registryName) = true

theorem isRegistryName_of_validate {settings : Settings}
    (valid : Settings.validate settings.toValue = .ok ()) :
    Settings.isRegistryName settings.registryName = true := by
  unfold Settings.validate at valid
  split at valid
  · simp at valid
  · have parts : Key.name Settings.pathsKey ≠ Key.name Settings.generationKey := by decide
    have keys : Key.name Settings.formatterKey ≠ Key.name Settings.registryKey := by decide
    simp only [Settings.validateSection, Settings.setting?, Settings.toValue, Value.ofNamed,
      List.map_cons, List.map_nil, Value.find?_cons, if_neg parts, if_true,
      Settings.validateGeneration] at valid
    split at valid
    · simp at valid
    · simp only [Settings.check, Settings.setting?, Value.find?_cons, if_neg keys,
        if_true] at valid
      split at valid
      · assumption
      · simp at valid

theorem isValid_of_setUp {current : Text} {toolbox : Toolbox} {settings : Settings}
    {project : Project} (valid : Settings.validate settings.toValue = .ok ())
    (made : setUp current toolbox settings = .ok project) : project.IsValid := by
  have name := isRegistryName_of_validate valid
  unfold setUp at made
  split at made
  · simp at made
  · rename_i runSettings read
    split at made
    · simp at made
    · rename_i formatter chosen
      rw [← Except.ok.inj made]
      unfold RunSettings.ofSettings? at read
      split at read
      · rename_i root api implementation registry _ _ _ text
        rw [← Option.some.inj read]
        refine ⟨⟨current, root, rfl⟩, ⟨api, rfl⟩, ⟨implementation, rfl⟩, ?_⟩
        cases value : settings.registryName with
        | text given =>
            rw [value] at name text
            rw [← show given = registry from Option.some.inj text]
            exact name
        | _ => simp [value, Settings.isRegistryName] at name
      · simp at read

/-- The location of a path of the project. -/
def location (project : Project) (path : Text) : Location :=
  Disk.place [] (Path.components (project.fullPath path))

end Project

/-! ## Packages that were found -/

namespace Package

theorem components_directoryAt {parts way : Location}
    (proper : ∀ name ∈ parts ++ way, IsComponent name) :
    Path.components (directoryAt parts way) = parts ++ way ∧
      Path.isAbsolute (directoryAt parts way) = false := by
  unfold directoryAt
  split
  · rename_i nothing
    rw [nothing]
    exact ⟨by decide, by decide⟩
  · exact ⟨Path.components_join_slash proper, Path.isAbsolute_join proper⟩

/-- The names on the way from the root to a directory, as the root and the
directory are written. -/
def relativeSteps (root directory : Text) : List Text :=
  (Path.components (Path.within root directory)).drop (Path.components root).length

theorem isComponent_of_mem_relativeSteps {root directory : Text} :
    ∀ name ∈ relativeSteps root directory, IsComponent name := by
  intro name member
  exact Path.isComponent_of_mem_components name (List.mem_of_mem_drop member)

/-- A package at the end of a way of names below a directory. -/
structure IsAt (root directory : Text) (way : Location) (package : Package) : Prop where
  named : ∀ name ∈ way, IsComponent name ∧ name ≠ Path.up
  directory : package.directory = directoryAt (relativeSteps root directory) way
  files : ∀ name ∈ package.fileNames, IsComponent name ∧ name ≠ Path.up

namespace IsAt

variable {root directory : Text} {way : Location} {package : Package}

theorem noUp (placed : package.IsAt root directory way) : Path.up ∉ way := by
  intro member
  exact (placed.named _ member).2 rfl

theorem components (placed : package.IsAt root directory way) :
    Path.components package.directory = relativeSteps root directory ++ way ∧
      Path.isAbsolute package.directory = false := by
  rw [placed.directory]
  apply components_directoryAt
  intro name member
  cases List.mem_append.mp member with
  | inl above => exact isComponent_of_mem_relativeSteps name above
  | inr below => exact (placed.named name below).1

theorem directory_ne_nil (placed : package.IsAt root directory way) : package.directory ≠ [] := by
  intro empty
  have nothing : relativeSteps root directory ++ way = [] := by
    rw [← placed.components.1, empty]
    decide
  have here := placed.directory
  rw [empty, directoryAt, nothing] at here
  simp [Path.here] at here

end IsAt

/-- The source file at the end of a way, which is split at its last name. -/
def sourceAt? (way : Location) : Option Found :=
  match way.reverse with
  | [] => none
  | name :: parents => if Go.isSourceName name then some ⟨parents.reverse, name⟩ else none

theorem sourceAt?_eq_some_iff {way : Location} {file : Found} :
    sourceAt? way = some file ↔
      way = file.way ++ [file.name] ∧ Go.isSourceName file.name = true := by
  obtain ⟨parents, name⟩ := file
  unfold sourceAt?
  constructor
  · intro here
    split at here
    · simp at here
    · rename_i last rest reversed
      split at here
      · rename_i source
        obtain ⟨rfl, rfl⟩ := Found.mk.inj (Option.some.inj here)
        have whole : way = rest.reverse ++ [last] := by
          rw [← List.reverse_reverse way, reversed, List.reverse_cons]
        exact ⟨whole, source⟩
      · simp at here
  · rintro ⟨rfl, source⟩
    simp [source]

theorem mem_found_iff {disk : Disk} {location : Location} {file : Found} :
    file ∈ found disk location ↔
      Go.isSourceName file.name = true ∧
        ∃ content, (location ++ file.way ++ [file.name], Entry.file content) ∈ disk.entries := by
  have split : found disk location =
      (disk.filesBelow location).filterMap fun item => sourceAt? item.1 := rfl
  simp only [split, List.mem_filterMap, sourceAt?_eq_some_iff, Disk.mem_filesBelow_iff]
  constructor
  · rintro ⟨⟨way, content⟩, listed, rfl, source⟩
    exact ⟨source, content, by rwa [List.append_assoc]⟩
  · rintro ⟨source, content, listed⟩
    rw [List.append_assoc] at listed
    exact ⟨⟨_, content⟩, listed, rfl, source⟩

theorem nodup_directory_group (files : List (Text × Text)) :
    ((group files).map Package.directory).Nodup := by
  unfold group
  dsimp only
  rw [List.map_map]
  have same : (Package.directory ∘ fun directory =>
      Package.mk directory (Sorting.sort Text.order
        ((files.filter fun file => file.1 == directory).map Prod.snd))) = id := rfl
  rw [same, List.map_id]
  exact (Sorting.sort_perm _ _).nodup_iff.mpr (Sorting.nodup_distinct _)

theorem exists_file_of_mem_group {files : List (Text × Text)} {package : Package}
    (member : package ∈ group files) :
    (∃ file ∈ files, package.directory = file.1) ∧
      ∀ name ∈ package.fileNames, (package.directory, name) ∈ files := by
  obtain ⟨directory, listed, rfl⟩ := List.mem_map.mp member
  constructor
  · obtain ⟨file, known, rfl⟩ :=
      List.mem_map.mp ((Sorting.mem_distinct).mp ((Sorting.mem_sort _).mp listed))
    exact ⟨file, known, rfl⟩
  · intro name named
    obtain ⟨file, known, rfl⟩ := List.mem_map.mp ((Sorting.mem_sort _).mp named)
    obtain ⟨inside, same⟩ := List.mem_filter.mp known
    rw [← beq_iff_eq.mp same]
    exact inside

variable {disk : Disk} {root directory : Text} {packages : List Package}

theorem nodup_directory_of_crawl (crawled : crawl disk root directory = .ok packages) :
    (packages.map Package.directory).Nodup := by
  obtain ⟨location, _, _, ⟨_, rfl⟩ | ⟨_, _, rfl⟩⟩ := crawl_eq_ok_iff.mp crawled
  · exact List.nodup_nil
  · exact nodup_directory_group _

/-- A package that was found stands at the end of a way, and whatever holds of
all names on the disk holds of those on the way and of those of its files. -/
theorem exists_way_of_crawl {good : Text → Prop}
    (names : ∀ item ∈ disk.entries, ∀ name ∈ item.1, good name)
    (crawled : crawl disk root directory = .ok packages) :
    ∀ package ∈ packages, ∃ way,
      (∀ name ∈ way, good name) ∧
        package.directory = directoryAt (relativeSteps root directory) way ∧
        ∀ name ∈ package.fileNames, good name := by
  intro package member
  obtain ⟨location, _, _, ⟨_, rfl⟩ | ⟨_, _, rfl⟩⟩ := crawl_eq_ok_iff.mp crawled
  · simp at member
  · obtain ⟨⟨file, known, same⟩, named⟩ := exists_file_of_mem_group member
    have proper : ∀ file ∈ found disk location, ∀ name ∈ file.way ++ [file.name], good name := by
      intro file listed name inside
      obtain ⟨_, content, entry⟩ := mem_found_iff.mp listed
      apply names _ entry
      rw [List.append_assoc]
      exact List.mem_append_right location inside
    obtain ⟨first, listed, rfl⟩ := List.mem_map.mp known
    refine ⟨first.way, ?_, same, ?_⟩
    · intro name inside
      exact proper first listed name (List.mem_append_left _ inside)
    · intro name inside
      obtain ⟨other, known, same⟩ := List.mem_map.mp (named name inside)
      rw [← (Prod.mk.inj same).2]
      exact proper other known other.name (by simp)

theorem exists_isAt_of_crawl (fileSystem : disk.IsFileSystem)
    (crawled : crawl disk root directory = .ok packages) :
    ∀ package ∈ packages, ∃ way, package.IsAt root directory way := by
  intro package member
  obtain ⟨way, named, place, files⟩ :=
    exists_way_of_crawl fileSystem.names crawled package member
  exact ⟨way, named, place, files⟩

theorem eq_of_isAt (crawled : crawl disk root directory = .ok packages) {way : Location}
    {first second : Package} (firstListed : first ∈ packages) (secondListed : second ∈ packages)
    (firstAt : first.IsAt root directory way) (secondAt : second.IsAt root directory way) :
    first = second := by
  have same : first.directory = second.directory := by
    rw [firstAt.directory, secondAt.directory]
  exact List.inj_on_of_nodup_map (nodup_directory_of_crawl crawled) firstListed secondListed same

/-- The root is a directory where packages were found. -/
theorem root_is_directory_of_crawl (rooted : Path.up ∉ Path.components root)
    (crawled : crawl disk root directory = .ok packages) (something : packages ≠ []) :
    disk.entry? (Path.components root) = some .directory ∧
      Path.components (Path.within root directory) =
        Path.components root ++ relativeSteps root directory := by
  obtain ⟨location, present, _, ⟨_, nothing⟩ | ⟨_, above, _⟩⟩ := crawl_eq_ok_iff.mp crawled
  · exact absurd nothing something
  · obtain ⟨steps, whole⟩ := (Path.isBelow_iff.mp above).2
    have relative : relativeSteps root directory = steps := by
      rw [relativeSteps, ← whole, List.drop_left]
    refine ⟨?_, by rw [relative, whole]⟩
    obtain ⟨_, reached, located, entry⟩ := Disk.at?_eq_directory_iff.mp present
    unfold Disk.locate at located
    cases walked : disk.walk [] (Path.components (Path.within root directory)) with
    | error fault => simp [walked] at located
    | ok last =>
        rw [← whole, Disk.walk_append_iff] at walked
        obtain ⟨middle, first, later⟩ := walked
        have here := Disk.walk_eq_append rooted first
        rw [List.nil_append] at here
        subst here
        cases steps with
        | nil =>
            have same : last = Path.components root := (Except.ok.inj later).symm
            rw [← whole, List.append_nil] at located
            simp only [first] at located
            split at located
            · simp at located
            · rw [Except.ok.inj located]
              exact entry
        | cons step others => exact (Disk.walk_cons_eq_ok_iff.mp later).1

/-- The files of a package are reached from its directory. -/
theorem reaches_directory (rooted : Path.up ∉ Path.components root)
    (crawled : crawl disk root directory = .ok packages) {package : Package}
    (listed : package ∈ packages) {way : Location} (placed : package.IsAt root directory way) :
    disk.Reaches (Path.within root package.directory)
      (Disk.place [] (Path.components (Path.within root directory)) ++ way) := by
  have something : packages ≠ [] := List.ne_nil_of_mem listed
  obtain ⟨_, steps⟩ := root_is_directory_of_crawl rooted crawled something
  obtain ⟨parts, relative⟩ := placed.components
  obtain ⟨location, _, located, _⟩ := crawl_eq_ok_iff.mp crawled
  have base : disk.Reaches (Path.within root directory)
      (Disk.place [] (Path.components (Path.within root directory))) := by
    have reached := Disk.reaches_of_locate located
    rwa [reached.eq_place] at reached
  apply base.append placed.noUp
  rw [Path.components_within relative, parts, steps, List.append_assoc]

end Package

/-! ## The implementation directory -/

namespace Disk

theorem IsTree.exists_walk_up {disk : Disk} (tree : disk.IsTree) (count : Nat) :
    ∀ {location : Location}, disk.entry? location = some .directory →
      ∃ last, disk.walk location (List.replicate count Path.up) = .ok last := by
  induction count with
  | zero =>
      intro location _
      exact ⟨location, rfl⟩
  | succ count induction =>
      intro location directory
      obtain ⟨last, walked⟩ := induction (tree.directory_dropLast directory)
      refine ⟨last, walk_cons_eq_ok_iff.mpr ⟨directory, ?_⟩⟩
      simpa [stepTo] using walked

end Disk

namespace Project

variable {project : Project} {disk : Disk}

theorem IsValid.up_not_mem_root (valid : project.IsValid) :
    Path.up ∉ Path.components project.settings.root := by
  obtain ⟨current, path, same⟩ := valid.root
  rw [same]
  exact Path.up_not_mem_components_resolve current path

/-- The implementation directory is reached from the root. -/
theorem IsValid.reaches_implementationDirectory (valid : project.IsValid) (tree : disk.IsTree)
    (root : disk.entry? (Path.components project.settings.root) = some .directory) :
    disk.Reaches (project.fullPath project.settings.implementationDirectory)
      (project.location project.settings.implementationDirectory) := by
  obtain ⟨path, same⟩ := valid.implementation
  obtain ⟨count, names, split, noUp, bounded⟩ := Path.isResolved_components_normalize path
  rw [← same] at split
  have reaches : ∃ target,
      disk.Reaches (project.fullPath project.settings.implementationDirectory) target := by
    cases absolute : Path.isAbsolute project.settings.implementationDirectory with
    | true =>
        have given : Path.isAbsolute path = true := by
          rw [← absolute, same, Path.isAbsolute_normalize]
        have parts : Path.components (project.fullPath project.settings.implementationDirectory) =
            names := by
          rw [fullPath, Path.within, Path.components_tidy, Path.components_join, if_pos absolute,
            split, bounded given]
          rfl
        exact ⟨names, [], names, [], by simpa using parts, noUp, rfl, rfl⟩
    | false =>
        have parts := Path.components_within absolute project.settings.root
        rw [split, ← List.append_assoc] at parts
        have present : disk.entry? ([] ++ Path.components project.settings.root) ≠ none := by
          rw [List.nil_append, root]
          simp
        have start := tree.walk_of_present valid.up_not_mem_root present
        rw [List.nil_append] at start
        obtain ⟨base, up⟩ := tree.exists_walk_up count root
        exact ⟨base ++ names, _, names, base, parts, noUp,
          (Disk.walk_append_iff _).mpr ⟨_, start, up⟩, rfl⟩
  obtain ⟨target, reached⟩ := reaches
  rw [location, ← reached.eq_place]
  exact reached

theorem IsValid.components_transplant (valid : project.IsValid) {package : Package}
    {way : Location}
    (placed : package.IsAt project.settings.root project.settings.apiDirectory way)
    {packagePath : Text}
    (transplanted : Path.transplant project.settings.apiDirectory
      project.settings.implementationDirectory package.directory = .ok packagePath) :
    Path.components packagePath =
        Path.components project.settings.implementationDirectory ++ way ∧
      Path.isAbsolute packagePath =
        Path.isAbsolute project.settings.implementationDirectory ∧
      (way = [] → packagePath = project.settings.implementationDirectory) := by
  obtain ⟨parts, relative⟩ := placed.components
  obtain ⟨api, apiSame⟩ := valid.api
  obtain ⟨path, same⟩ := valid.implementation
  have apiRelative : Path.isAbsolute project.settings.apiDirectory = false := by
    cases absolute : Path.isAbsolute project.settings.apiDirectory with
    | false => rfl
    | true =>
        obtain ⟨fault, failed⟩ := Path.transplant_of_isAbsolute
          project.settings.implementationDirectory absolute relative
        rw [failed] at transplanted
        simp at transplanted
  have steps : Package.relativeSteps project.settings.root project.settings.apiDirectory =
      Path.components (Path.normalize project.settings.apiDirectory) := by
    rw [Package.relativeSteps, Path.components_within apiRelative, List.drop_left, apiSame,
      Path.components_normalize_normalize]
  rw [steps] at parts
  have result := Path.components_of_transplant (fun name member => (placed.named name member).1)
    placed.noUp apiRelative relative parts transplanted
  rw [same, Path.normalize_normalize, ← same] at result
  exact result

/-- The directory of a package's implementations is reached at the end of the
package's way. -/
theorem IsValid.reaches_packagePath (valid : project.IsValid) (tree : disk.IsTree)
    (root : disk.entry? (Path.components project.settings.root) = some .directory)
    {package : Package} {way : Location}
    (placed : package.IsAt project.settings.root project.settings.apiDirectory way)
    {packagePath : Text}
    (transplanted : Path.transplant project.settings.apiDirectory
      project.settings.implementationDirectory package.directory = .ok packagePath) :
    disk.Reaches (project.fullPath packagePath)
      (project.location project.settings.implementationDirectory ++ way) := by
  obtain ⟨parts, kind, _⟩ := valid.components_transplant placed transplanted
  apply (valid.reaches_implementationDirectory tree root).append placed.noUp
  exact Path.components_within_append kind parts

theorem reaches_join {path name : Text} {target : Location} (something : path ≠ [])
    (proper : IsComponent name ∧ name ≠ Path.up)
    (reaches : disk.Reaches (project.fullPath path) target) :
    disk.Reaches (project.fullPath (Path.join path name)) (target ++ [name]) := by
  obtain ⟨parts, kind⟩ := Path.components_join_name proper.1 something
  apply reaches.append
  · simpa using Ne.symm proper.2
  · exact Path.components_within_append kind parts

theorem IsValid.registryName_proper (valid : project.IsValid) :
    IsComponent project.settings.registryName ∧ project.settings.registryName ≠ Path.up := by
  obtain ⟨source, noSlash⟩ := Bool.and_eq_true_iff.mp valid.registry
  obtain ⟨start, whole⟩ := List.isSuffixOf_iff_suffix.mp source
  have long : 3 ≤ project.settings.registryName.length := by
    rw [← whole, List.length_append]
    simp [Go.sourceSuffix]
  refine ⟨⟨?_, ?_, ?_⟩, ?_⟩
  · intro same
    simp [same] at long
  · intro same
    simp [same, Path.here] at long
  · simpa using noSlash
  · intro same
    simp [same, Path.up] at long

/-- The registry is reached directly inside the implementation directory. -/
theorem IsValid.reaches_registryPath (valid : project.IsValid) (tree : disk.IsTree)
    (root : disk.entry? (Path.components project.settings.root) = some .directory) :
    disk.Reaches (project.fullPath project.settings.registryPath)
      (project.location project.settings.implementationDirectory ++
        [project.settings.registryName]) := by
  obtain ⟨path, same⟩ := valid.implementation
  apply reaches_join
  · rw [same]
    exact Path.normalize_ne_nil path
  · exact valid.registryName_proper
  · exact valid.reaches_implementationDirectory tree root

end Project

end Scaffold
