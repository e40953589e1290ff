import Scaffold.Proofs.Disk.Order
import Scaffold.Proofs.Path.Arrival
import Scaffold.Proofs.Project.Separation

/-!
# What a crawl lists

A crawl lists the source files anywhere below its directory, each of them once, and
nothing else.  Directories and file names ascend, so one list only answers a crawl.
-/

namespace Scaffold

namespace Package

/-- A directory holds a file that is a source by its name, and no test. -/
structure HoldsSource (disk : Disk) (place : Location) (name : Text) : Prop where
  file : ∃ content, disk.content? (place ++ [name]) = some content
  source : Go.sourceSuffix <:+ name
  noTest : ¬ Go.testSuffix <:+ name

/-- The package lists the sources of the directory at the end of a way below a
location, under the path of that directory. -/
structure Lists (package : Package) (disk : Disk) (root directory : Text)
    (location way : Location) : Prop where
  directory : package.directory = directoryAt (Path.components directory) way
  located : disk.locate (Path.within root package.directory) = .ok (location ++ way)
  something : package.fileNames ≠ []
  ascending : package.fileNames.Pairwise fun left right => Text.order left right = .lt
  files : ∀ name, name ∈ package.fileNames ↔ HoldsSource disk (location ++ way) name

/-- The packages list the sources below a location, and nothing else. -/
structure IsExact (disk : Disk) (root directory : Text) (location : Location)
    (packages : List Package) : Prop where
  ascending : packages.Pairwise fun left right =>
    Text.order left.directory right.directory = .lt
  sound : ∀ package ∈ packages, ∃ way, package.Lists disk root directory location way
  complete : ∀ way name, HoldsSource disk (location ++ way) name →
    ∃! package, package ∈ packages ∧
      disk.locate (Path.within root package.directory) = .ok (location ++ way) ∧
        name ∈ package.fileNames

variable {disk : Disk} {root directory : Text} {location way : Location}

/-! ## One list -/

theorem Lists.eq {first second : Package} (lists : first.Lists disk root directory location way)
    (also : second.Lists disk root directory location way) : first = second := by
  have directories : first.directory = second.directory :=
    lists.directory.trans also.directory.symm
  have names : first.fileNames = second.fileNames := by
    apply Sorting.eq_of_pairwise_lt Text.order id lists.ascending also.ascending
    intro name
    exact (lists.files name).trans (also.files name).symm
  cases first
  cases second
  exact congrArg₂ Package.mk directories names

theorem Lists.of_located {package : Package} {other : Location}
    (lists : package.Lists disk root directory location other)
    (located : disk.locate (Path.within root package.directory) = .ok (location ++ way)) :
    package.Lists disk root directory location way := by
  have same : other = way :=
    List.append_cancel_left (Except.ok.inj (lists.located.symm.trans located))
  rwa [same] at lists

namespace IsExact

variable {packages others : List Package}

theorem mem_of_mem (exact : IsExact disk root directory location packages)
    (also : IsExact disk root directory location others) {package : Package}
    (member : package ∈ packages) : package ∈ others := by
  obtain ⟨way, lists⟩ := exact.sound package member
  obtain ⟨name, named⟩ := List.exists_mem_of_ne_nil _ lists.something
  obtain ⟨other, ⟨listed, located, _⟩, _⟩ := also.complete way name ((lists.files name).mp named)
  obtain ⟨_, otherLists⟩ := also.sound other listed
  rw [lists.eq (otherLists.of_located located)]
  exact listed

theorem eq (exact : IsExact disk root directory location packages)
    (also : IsExact disk root directory location others) : packages = others := by
  apply Sorting.eq_of_pairwise_lt Text.order Package.directory exact.ascending also.ascending
  intro package
  exact ⟨exact.mem_of_mem also, also.mem_of_mem exact⟩

end IsExact

/-! ## Grouped files -/

section Group

variable {files : List (Text × Text)}

theorem pairwise_group (files : List (Text × Text)) :
    (group files).Pairwise fun left right =>
      Text.order left.directory right.directory = .lt := by
  have directories := Sorting.pairwise_lt_sort Text.order
    (Sorting.nodup_distinct (files.map Prod.fst))
  exact List.pairwise_map.mpr directories

theorem exists_mem_group {file : Text × Text} (member : file ∈ files) :
    ∃ package ∈ group files, package.directory = file.1 := by
  have known : file.1 ∈ Sorting.sort Text.order (Sorting.distinct (files.map Prod.fst)) := by
    rw [Sorting.mem_sort, Sorting.mem_distinct]
    exact List.mem_map_of_mem member
  exact ⟨_, List.mem_map_of_mem known, rfl⟩

variable {package : Package} (member : package ∈ group files)
include member

theorem mem_fileNames_iff {name : Text} :
    name ∈ package.fileNames ↔ (package.directory, name) ∈ files := by
  constructor
  · exact (exists_file_of_mem_group member).2 name
  · intro listed
    obtain ⟨directory, _, rfl⟩ := List.mem_map.mp member
    rw [Sorting.mem_sort]
    exact List.mem_map.mpr ⟨_, List.mem_filter.mpr ⟨listed, beq_self_eq_true _⟩, rfl⟩

theorem pairwise_fileNames (once : files.Nodup) :
    package.fileNames.Pairwise fun left right => Text.order left right = .lt := by
  obtain ⟨directory, _, rfl⟩ := List.mem_map.mp member
  apply Sorting.pairwise_lt_sort
  refine (once.filter _).map_on ?_
  intro left inside right also same
  have here : left.1 = directory := beq_iff_eq.mp (List.mem_filter.mp inside).2
  have there : right.1 = directory := beq_iff_eq.mp (List.mem_filter.mp also).2
  exact Prod.ext (here.trans there.symm) same

end Group

/-! ## Files that are found -/

theorem isSourceName_iff {name : Text} :
    Go.isSourceName name = true ↔ Go.sourceSuffix <:+ name ∧ ¬ Go.testSuffix <:+ name := by
  simp [Go.isSourceName, Text.endsWith, List.isSuffixOf_iff_suffix, ← Bool.not_eq_true]

theorem mem_found_iff_holdsSource (isMap : disk.IsMap) {file : Found} :
    file ∈ found disk location ↔ HoldsSource disk (location ++ file.way) file.name := by
  have entry (content : Bytes) :
      (location ++ file.way ++ [file.name], Entry.file content) ∈ disk.entries ↔
        disk.content? (location ++ file.way ++ [file.name]) = some content := by
    have inside : (location ++ file.way ++ [file.name]).isEmpty = false := by
      simp
    rw [Disk.content?_eq_some_iff, Disk.entry?, inside, ← Disk.find?_eq_some_iff isMap]
    rfl
  rw [mem_found_iff, isSourceName_iff]
  constructor
  · rintro ⟨⟨source, noTest⟩, content, listed⟩
    exact ⟨⟨content, (entry content).mp listed⟩, source, noTest⟩
  · rintro ⟨⟨content, present⟩, source, noTest⟩
    exact ⟨⟨source, noTest⟩, content, (entry content).mpr present⟩

theorem nodup_found (isMap : disk.IsMap) (location : Location) : (found disk location).Nodup := by
  have split : found disk location =
      (disk.filesBelow location).filterMap fun item => sourceAt? item.1 := rfl
  rw [split, List.Nodup, List.pairwise_filterMap]
  refine (List.pairwise_map.mp (isMap.nodup_filesBelow location)).imp ?_
  intro left right different first here second there same
  have firstWay := (sourceAt?_eq_some_iff.mp here).1
  have secondWay := (sourceAt?_eq_some_iff.mp there).1
  exact different (by rw [firstWay, secondWay, same])

theorem HoldsSource.named {name : Text} (holds : HoldsSource disk (location ++ way) name)
    (fileSystem : disk.IsFileSystem) (isMap : disk.IsMap) :
    ∀ other ∈ way, Path.IsComponent other ∧ other ≠ Path.up := by
  have found : ⟨way, name⟩ ∈ found disk location := (mem_found_iff_holdsSource isMap).mpr holds
  obtain ⟨_, content, listed⟩ := mem_found_iff.mp found
  intro other member
  apply fileSystem.names _ listed
  simp [member]

theorem HoldsSource.entry?_eq {place : Location} {name : Text}
    (holds : HoldsSource disk place name) (tree : disk.IsTree) :
    disk.entry? place = some .directory := by
  obtain ⟨content, present⟩ := holds.file
  apply tree.directory_of_prefix []
  rw [Disk.content?_eq_some_iff.mp present]
  simp

/-! ## The directories of sources -/

theorem isComponent_of_mem_append (directory : Text)
    (named : ∀ name ∈ way, Path.IsComponent name ∧ name ≠ Path.up) :
    ∀ name ∈ Path.components directory ++ way, Path.IsComponent name := by
  intro name member
  rcases List.mem_append.mp member with above | below
  · exact Path.isComponent_of_mem_components name above
  · exact (named name below).1

/-- Directories at the ends of different ways have different paths. -/
theorem directoryAt_inj {other : Location}
    (named : ∀ name ∈ way, Path.IsComponent name ∧ name ≠ Path.up)
    (otherNamed : ∀ name ∈ other, Path.IsComponent name ∧ name ≠ Path.up)
    (same : directoryAt (Path.components directory) way =
      directoryAt (Path.components directory) other) : way = other := by
  have here := (components_directoryAt (isComponent_of_mem_append directory named)).1
  have there := (components_directoryAt (isComponent_of_mem_append directory otherNamed)).1
  rw [same, there] at here
  exact (List.append_cancel_left here).symm

/-- The files with the paths of their directories below a directory. -/
def placed (directory : Text) (files : List Found) : List (Text × Text) :=
  files.map fun file => (directoryAt (Path.components directory) file.way, file.name)

section Placed

variable (fileSystem : disk.IsFileSystem) (isMap : disk.IsMap)
include fileSystem isMap

theorem mem_placed_iff (named : ∀ name ∈ way, Path.IsComponent name ∧ name ≠ Path.up)
    {name : Text} :
    (directoryAt (Path.components directory) way, name) ∈
        placed directory (found disk location) ↔
      HoldsSource disk (location ++ way) name := by
  constructor
  · intro member
    obtain ⟨file, known, same⟩ := List.mem_map.mp member
    obtain ⟨directories, rfl⟩ := Prod.mk.inj same
    have holds := (mem_found_iff_holdsSource isMap).mp known
    rwa [directoryAt_inj (holds.named fileSystem isMap) named directories] at holds
  · intro holds
    exact List.mem_map.mpr ⟨⟨way, name⟩, (mem_found_iff_holdsSource isMap).mpr holds, rfl⟩

theorem nodup_placed (directory : Text) (location : Location) :
    (placed directory (found disk location)).Nodup := by
  apply (nodup_found isMap location).map_on
  intro first known second also same
  obtain ⟨directories, names⟩ := Prod.mk.inj same
  have firstHolds := (mem_found_iff_holdsSource isMap).mp known
  have secondHolds := (mem_found_iff_holdsSource isMap).mp also
  have ways := directoryAt_inj (firstHolds.named fileSystem isMap)
    (secondHolds.named fileSystem isMap) directories
  exact congrArg₂ Found.mk ways names

end Placed

section Relative

variable (relative : Path.isAbsolute directory = false)
include relative

/-- The path of a directory below the crawled one leads there from the root. -/
theorem locate_directoryAt (tree : disk.IsTree)
    (located : disk.locate (Path.within root directory) = .ok location)
    (named : ∀ name ∈ way, Path.IsComponent name ∧ name ≠ Path.up)
    (there : disk.entry? (location ++ way) = some .directory) :
    disk.locate (Path.within root (directoryAt (Path.components directory) way)) =
      .ok (location ++ way) := by
  have noUp : Path.up ∉ way := fun member => (named _ member).2 rfl
  obtain ⟨parts, below⟩ := components_directoryAt (isComponent_of_mem_append directory named)
  have reaches := (Disk.reaches_of_locate located).append noUp
    (Path.components_within_append (below.trans relative.symm) parts)
  exact reaches.locate_of_directory tree there

theorem crawl_of_isDirectory (present : disk.isDirectory (Path.within root directory) = true)
    (located : disk.locate (Path.within root directory) = .ok location) :
    crawl disk root directory = .ok (group (placed directory (found disk location))) := by
  rw [placed, ← relativeSteps_of_relative relative root]
  apply crawl_eq_ok_iff.mpr
  refine ⟨location, beq_iff_eq.mp present, located, ?_⟩
  by_cases nothing : found disk location = []
  · rw [nothing]
    exact .inl ⟨rfl, rfl⟩
  · refine .inr ⟨nothing, ?_, rfl⟩
    exact Path.isBelow_within relative root

variable (fileSystem : disk.IsFileSystem) (isMap : disk.IsMap)
  (located : disk.locate (Path.within root directory) = .ok location)
include fileSystem isMap located

theorem lists_of_mem_group {package : Package} {name : Text}
    (member : package ∈ group (placed directory (found disk location)))
    (place : package.directory = directoryAt (Path.components directory) way)
    (holds : HoldsSource disk (location ++ way) name) :
    package.Lists disk root directory location way := by
  have named := holds.named fileSystem isMap
  have files (other : Text) :
      other ∈ package.fileNames ↔ HoldsSource disk (location ++ way) other := by
    rw [mem_fileNames_iff member, place]
    exact mem_placed_iff fileSystem isMap named
  refine ⟨place, ?_, List.ne_nil_of_mem ((files name).mpr holds), ?_, files⟩
  · rw [place]
    exact locate_directoryAt relative fileSystem.tree located named
      (holds.entry?_eq fileSystem.tree)
  · exact pairwise_fileNames member (nodup_placed fileSystem isMap directory location)

theorem exists_lists_of_mem_group {package : Package}
    (member : package ∈ group (placed directory (found disk location))) :
    ∃ way, package.Lists disk root directory location way := by
  obtain ⟨file, known, place⟩ := (exists_file_of_mem_group member).1
  obtain ⟨source, listed, rfl⟩ := List.mem_map.mp known
  have holds := (mem_found_iff_holdsSource isMap).mp listed
  exact ⟨source.way, lists_of_mem_group relative fileSystem isMap located member place holds⟩

theorem isExact_group :
    IsExact disk root directory location (group (placed directory (found disk location))) where
  ascending := pairwise_group _
  sound := fun _ member => exists_lists_of_mem_group relative fileSystem isMap located member
  complete := by
    intro way name holds
    have known : (directoryAt (Path.components directory) way, name) ∈
        placed directory (found disk location) :=
      (mem_placed_iff fileSystem isMap (holds.named fileSystem isMap)).mpr holds
    obtain ⟨package, member, place⟩ := exists_mem_group known
    have lists := lists_of_mem_group relative fileSystem isMap located member place holds
    refine ⟨package, ⟨member, lists.located, (lists.files name).mpr holds⟩, ?_⟩
    rintro other ⟨also, leads, _⟩
    obtain ⟨_, otherLists⟩ :=
      exists_lists_of_mem_group relative fileSystem isMap located also
    exact (otherLists.of_located leads).eq lists

end Relative

/-! ## The crawl -/

/-- A crawl fails exactly if its directory is no directory, and answers with the one
exact list of the sources below it otherwise. -/
theorem crawl_exact (fileSystem : disk.IsFileSystem) (isMap : disk.IsMap)
    (relative : Path.isAbsolute directory = false) (root : Text) :
    (∀ fault, crawl disk root directory = .error fault ↔
      disk.isDirectory (Path.within root directory) = false ∧
        fault = .notFound (Path.within root directory)) ∧
    ∀ packages, crawl disk root directory = .ok packages ↔
      disk.isDirectory (Path.within root directory) = true ∧
        ∃ location, disk.locate (Path.within root directory) = .ok location ∧
          IsExact disk root directory location packages := by
  cases present : disk.isDirectory (Path.within root directory) with
  | false =>
      have failed : crawl disk root directory = .error (.notFound (Path.within root directory)) := by
        rw [crawl, present]
        rfl
      simp [failed, eq_comm]
  | true =>
      obtain ⟨_, location, located, _⟩ := Disk.at?_eq_directory_iff.mp (beq_iff_eq.mp present)
      have crawled := crawl_of_isDirectory relative present located
      have exact := isExact_group relative fileSystem isMap located
      constructor
      · intro fault
        rw [crawled]
        simp
      · intro packages
        rw [crawled, located]
        constructor
        · intro same
          rw [← Except.ok.inj same]
          exact ⟨rfl, location, rfl, exact⟩
        · rintro ⟨_, other, same, also⟩
          rw [← Except.ok.inj same] at also
          rw [exact.eq also]

/-- Sources beside a test and in a directory that is named like a source. -/
def sourcesDisk : Disk where
  entries :=
    [(["p"], .directory), (["p", "api"], .directory), (["p", "api", "x.go"], .directory),
      (["p", "api", "x.go", "b.go"], .file []), (["p", "api", "c.go"], .file []),
      (["p", "api", "a_test.go"], .file []), (["p", "api", "a.go"], .file []),
      (["p", "api", "none"], .directory), (["p", "api", "none", "go.txt"], .file [])]

/-- The directory may be given by a detour, but not a file in its place. -/
theorem crawl_exact_detour :
    IsExact sourcesDisk "/p" "./api/x.go/.." ["p", "api"]
        [⟨"api/x.go/..", ["a.go", "c.go"]⟩, ⟨"api/x.go/../x.go", ["b.go"]⟩] ∧
      crawl sourcesDisk "/p" "api/a.go" = .error (.notFound "/p/api/a.go") := by
  have fileSystem : sourcesDisk.IsFileSystem := by
    refine ⟨?_, by decide⟩
    apply Disk.isTree_of_entries
    simp [sourcesDisk, Disk.entry?, Disk.find?]
  have isMap : sourcesDisk.IsMap := by decide
  constructor
  · have crawled : crawl sourcesDisk "/p" "./api/x.go/.." =
        .ok [⟨"api/x.go/..", ["a.go", "c.go"]⟩, ⟨"api/x.go/../x.go", ["b.go"]⟩] := by
      decide +kernel
    obtain ⟨_, location, located, exact⟩ :=
      ((crawl_exact fileSystem isMap (by decide) "/p").2 _).mp crawled
    have place : location = ["p", "api"] := by
      have leads : sourcesDisk.locate (Path.within "/p" "./api/x.go/..") = .ok ["p", "api"] := by
        decide +kernel
      exact Except.ok.inj (located.symm.trans leads)
    rwa [place] at exact
  · apply ((crawl_exact fileSystem isMap (by decide) "/p").1 _).mpr
    decide +kernel

end Package

end Scaffold
