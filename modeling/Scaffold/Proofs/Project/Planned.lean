import Scaffold.Proofs.Project.Places
import Scaffold.Proofs.Text.Encoding

/-!
# Planned files

The files of a plan stand in the directory of their package, each under a name
of its own.  A planned file is unchanged exactly if the disk holds it already.
-/

namespace Scaffold

open Path (IsComponent)

namespace Merge

theorem map_encode_of_read {source? : Option Bytes} {implementations : List Implementation}
    {layout : Go.FileLayout} {previous? : Option Text}
    (result : read source? implementations = .ok (layout, previous?)) :
    previous?.map Utf8.encode = source? := by
  unfold read at result
  split at result
  · rw [← (Prod.mk.inj (Except.ok.inj result)).2]
    rfl
  · rename_i source
    split at result
    · simp at result
    · rename_i accepted
      obtain ⟨file, known, _⟩ := Go.FileLayout.exists_file_of_ofSource accepted
      have decoded := (Go.SourceFile.text_of_ofBytes known).1
      rw [← (Prod.mk.inj (Except.ok.inj result)).2, decoded]
      exact congrArg some (Utf8.encode_of_decode decoded)

end Merge

namespace Utf8

theorem encode_injective {left right : Text} (same : encode left = encode right) :
    left = right := by
  have decoded := congrArg decode same
  rw [decode_encode, decode_encode] at decoded
  exact Except.ok.inj decoded

end Utf8

namespace Merged

/-- A merged file is unchanged exactly if its text was there before. -/
theorem isChanged_eq_false_iff_map {merged : Merged} {source? : Option Bytes}
    (before : merged.previous?.map Utf8.encode = source?) :
    merged.isChanged = false ↔ source? = some (Utf8.encode merged.text) := by
  rw [isChanged, bne_eq_false_iff_eq, ← before]
  constructor
  · intro same
    rw [same]
    rfl
  · intro same
    obtain ⟨text, present, equal⟩ := Option.map_eq_some_iff.mp same
    rw [present, Utf8.encode_injective equal]

end Merged

/-! ## Names of files -/

namespace Contract

/-- A contract of a package is one of a file of the package. -/
theorem exists_source_of_mem_ofPackage {disk : Disk} {root packagePath : Text}
    (fileNames : List Text) :
    ∀ {contracts}, ofPackage disk root packagePath fileNames = .ok contracts →
      ∀ contract ∈ contracts, ∃ fileName source declared,
        ofSource source = .ok declared ∧
          contract ∈ declaredIn packagePath fileName declared := by
  induction fileNames with
  | nil =>
      intro contracts result contract member
      rw [← Except.ok.inj result] at member
      simp at member
  | cons fileName rest induction =>
      intro contracts result contract member
      rw [ofPackage] at result
      split at result
      · simp at result
      · rename_i source _
        split at result
        · simp at result
        · rename_i declared extracted
          split at result
          · simp at result
          · rename_i others later
            rw [← Except.ok.inj result] at member
            cases List.mem_append.mp member with
            | inl here => exact ⟨fileName, source, declared, extracted, here⟩
            | inr there => exact induction later contract there

theorem continuesName_of_ofPackage {disk : Disk} {root packagePath : Text}
    {fileNames : List Text} {contracts : List Contract}
    (result : ofPackage disk root packagePath fileNames = .ok contracts) :
    ∀ contract ∈ contracts, ∀ character ∈ contract.name,
      Go.continuesName character = true := by
  intro contract member
  obtain ⟨_, _, _, extracted, listed⟩ := exists_source_of_mem_ofPackage _ result contract member
  obtain ⟨before, known, rfl⟩ := List.mem_map.mp listed
  exact continuesName_of_ofSource extracted before known

end Contract

namespace Implementation

theorem mem_filesIn_of_mem_sourceFiles {disk : Disk} {directory : Text} {file : Text × Bytes}
    (member : file ∈ sourceFiles disk directory) :
    ∃ location, disk.locate directory = .ok location ∧ file ∈ disk.filesIn location := by
  unfold sourceFiles at member
  split at member
  · split at member
    · simp at member
    · rename_i location located
      exact ⟨location, located, (List.mem_filter.mp ((Sorting.mem_sort _).mp member)).1⟩
  · simp at member

end Implementation

namespace PackageFacts

/-- An implementation goes to a file that was scanned, or to the default file. -/
theorem fileName_implementation_cases
    {disk : Disk} {directory packagePath packageName : Text} {facts : PackageFacts}
    (scanned : (collect packagePath {} (Implementation.sourceFiles disk directory)).result =
      .ok facts) (contract : Contract) :
    (∃ content, ((facts.implementation packageName packagePath contract).fileName, content) ∈
        Implementation.sourceFiles disk directory) ∨
      (facts.implementation packageName packagePath contract).fileName =
        contract.defaultFileName := by
  unfold implementation
  split
  · rename_i fileName declared
    left
    obtain ⟨entry, found, rfl⟩ := Option.map_eq_some_iff.mp declared
    cases mem_declaredIn_of_collect _ _ scanned (List.mem_of_find?_eq_some found) with
    | inl nothing => simp at nothing
    | inr listed => exact listed
  · right
    rfl

end PackageFacts

namespace Project

variable {project : Project} {disk : Disk}

theorem path_of_isMergedFile {module : Module} {path : Text}
    {implementations : List Implementation} {merged : Merged}
    (planned : project.IsMergedFile disk module path implementations merged) :
    merged.path = path := by
  obtain ⟨layout, previous?, text, _, _, rfl⟩ := planned
  rfl

theorem previous_of_isMergedFile {module : Module} {path : Text}
    {implementations : List Implementation} {merged : Merged}
    (planned : project.IsMergedFile disk module path implementations merged) :
    merged.previous?.map Utf8.encode = disk.fileAt? (project.fullPath merged.path) := by
  rw [path_of_isMergedFile planned]
  obtain ⟨layout, previous?, text, read, _, rfl⟩ := planned
  exact Merge.map_encode_of_read read

/-- The paths of the files of a plan. -/
theorem path_of_isPlanFor {found : Except ModuleFault Module} {directory : Text}
    {contracts : List Contract} {plan : Plan}
    (planned : project.IsPlanFor disk found directory contracts plan) :
    plan.files.map Merged.path =
      (Sorting.distinct (plan.implementations.map Implementation.fileName)).map
        (Path.join plan.packagePath) := by
  have each : List.Forall₂ (fun group merged => merged.path = Path.join plan.packagePath group.1)
      (Implementation.groupByFile plan.implementations) plan.files := by
    apply planned.merged.imp
    intro group merged result
    obtain ⟨module, _, isMerged⟩ := result_planFile_eq_ok_iff.mp result
    exact path_of_isMergedFile isMerged
  have paths {groups : List (Text × List Implementation)} {files : List Merged}
      (all : List.Forall₂
        (fun group merged => merged.path = Path.join plan.packagePath group.1) groups files) :
      files.map Merged.path = groups.map fun group => Path.join plan.packagePath group.1 := by
    induction all with
    | nil => rfl
    | cons first _ induction => rw [List.map_cons, List.map_cons, first, induction]
  rw [paths each, Implementation.groupByFile, List.map_map]
  rfl

/-- Every file of a plan has a name of some kind, if every scanned file and every
default file has. -/
theorem forall_fileName_of_isPlanFor {good : Text → Prop} {found : Except ModuleFault Module}
    {directory : Text} {contracts : List Contract} {plan : Plan}
    (planned : project.IsPlanFor disk found directory contracts plan)
    (scanned : ∀ file ∈ Implementation.sourceFiles disk
      (Path.within project.settings.root plan.packagePath), good file.1)
    (byDefault : ∀ contract ∈ contracts, good contract.defaultFileName) :
    ∀ name ∈ plan.implementations.map Implementation.fileName, good name := by
  intro name member
  obtain ⟨facts, collected, listed⟩ := planned.scanned
  rw [listed] at member
  obtain ⟨implementation, known, rfl⟩ := List.mem_map.mp member
  obtain ⟨contract, contractListed, rfl⟩ := List.mem_map.mp known
  cases PackageFacts.fileName_implementation_cases collected contract with
  | inl file =>
      obtain ⟨content, read⟩ := file
      exact scanned _ read
  | inr same =>
      rw [same]
      exact byDefault contract contractListed

/-- Every file of a plan has a proper name, if every scanned file has. -/
theorem proper_of_isPlanFor {found : Except ModuleFault Module} {directory : Text}
    {fileNames : List Text} {other : Disk} {contracts : List Contract} {plan : Plan}
    (declared : Contract.ofPackage other project.settings.root directory fileNames =
      .ok contracts)
    (planned : project.IsPlanFor disk found directory contracts plan)
    (proper : ∀ file ∈ Implementation.sourceFiles disk
      (Path.within project.settings.root plan.packagePath),
        IsComponent file.1 ∧ file.1 ≠ Path.up) :
    ∀ name ∈ plan.implementations.map Implementation.fileName,
      IsComponent name ∧ name ≠ Path.up := by
  have byDefault : ∀ contract ∈ contracts,
      IsComponent contract.defaultFileName ∧ contract.defaultFileName ≠ Path.up := by
    intro contract listed
    apply Contract.isComponent_defaultFileName
    intro slash
    have letter := Contract.continuesName_of_ofPackage declared contract listed _ slash
    revert letter
    decide
  exact forall_fileName_of_isPlanFor planned proper byDefault

/-! ## Planned files on the disk before the run -/

/-- A file that was planned for a directory, as the disk before the run shows
it. -/
structure IsPlannedIn (project : Project) (disk : Disk) (directory : Location)
    (merged : Merged) : Prop where
  reaches : disk.Reaches (project.fullPath merged.path) (project.location merged.path)
  inside : ∃ name, project.location merged.path = directory ++ [name]
  source : Text.endsWith Go.sourceSuffix merged.path = true
  top : ∀ name, project.location merged.path =
    project.location project.settings.implementationDirectory ++ [name] →
      merged.path = Path.join project.settings.implementationDirectory name
  readable : ∃ previous? : Option Text,
    disk.fileAt? (project.fullPath merged.path) = previous?.map Utf8.encode
  unchanged : merged.isChanged = false ↔
    disk.fileAt? (project.fullPath merged.path) = some (Utf8.encode merged.text)

/-- What was found before a run of a valid project. -/
structure IsSurveyed (project : Project) (disk : Disk) (packages : List Package) : Prop where
  valid : project.IsValid
  fileSystem : disk.IsFileSystem
  crawled : Package.crawl disk project.settings.root project.settings.apiDirectory = .ok packages

/-- The directory for the implementations of a package at the end of a way. -/
def homeOf (project : Project) (way : Location) : Location :=
  project.location project.settings.implementationDirectory ++ way

variable {packages : List Package}

/-- The package is found at the end of a way. -/
abbrev PackageAt (project : Project) (way : Location) (package : Package) : Prop :=
  package.IsAt project.settings.root project.settings.apiDirectory way

theorem IsSurveyed.root (surveyed : project.IsSurveyed disk packages) (something : packages ≠ []) :
    disk.entry? (Path.components project.settings.root) = some .directory :=
  (Package.root_is_directory_of_crawl surveyed.valid.up_not_mem_root surveyed.crawled
    something).1

/-- Later on the disk a path still leads where it led, and the files of a
directory that was not written to are the same. -/
theorem sourceFiles_eq_of_agreesOutside {later : Disk} {changed : Location → Prop} {path : Text}
    {target : Location} (tree : disk.IsTree) (grown : disk.GrowsTo later)
    (agrees : disk.AgreesOutside changed later) (reaches : disk.Reaches path target)
    (kept : ∀ name, ¬ changed (target ++ [name])) :
    Implementation.sourceFiles later path = Implementation.sourceFiles disk path := by
  have same : later.filesIn target = disk.filesIn target := agrees.files target kept
  have reachesLater := reaches.of_growsTo grown
  unfold Implementation.sourceFiles
  by_cases before : disk.isDirectory path = true
  · have there := (reaches.isDirectory_iff tree).mp before
    have directory := grown.directories target there.2
    have after : later.isDirectory path = true :=
      (reachesLater.isDirectory_iff grown.tree).mpr ⟨there.1, directory⟩
    rw [if_pos before, if_pos after, reaches.locate_of_directory tree there.2,
      reachesLater.locate_of_directory grown.tree directory]
    simp only [same]
  · rw [if_neg before]
    by_cases after : later.isDirectory path = true
    · -- The directory is new, so it has no files.
      have there := (reachesLater.isDirectory_iff grown.tree).mp after
      have nothing : disk.filesIn target = [] := by
        apply List.eq_nil_iff_forall_not_mem.mpr
        intro file member
        have present := Disk.entry?_of_mem (Disk.mem_filesIn member)
        have directory := tree.directory_of_prefix [] present
        exact before ((reaches.isDirectory_iff tree).mpr ⟨there.1, directory⟩)
      rw [if_pos after, reachesLater.locate_of_directory grown.tree there.2]
      simp only [same, nothing]
      rfl
    · rw [if_neg after]

theorem fileAt?_eq_of_agreesOutside {later : Disk} {changed : Location → Prop} {path : Text}
    {target : Location} (tree : disk.IsTree) (grown : disk.GrowsTo later)
    (agrees : disk.AgreesOutside changed later) (reaches : disk.Reaches path target)
    (kept : ¬ changed target) : later.fileAt? path = disk.fileAt? path := by
  apply Option.ext
  intro content
  rw [(reaches.of_growsTo grown).fileAt?_eq_some_iff grown.tree,
    reaches.fileAt?_eq_some_iff tree, agrees.contents _ kept]

/-! ## Plans made later on -/

section Later

variable {package : Package} {way : Location} {later : Disk} {changed : Location → Prop}
  {found : Except ModuleFault Module} {contracts : List Contract} {plan : Plan}

/-- The files of a plan stand in the directory of its package. -/
theorem IsSurveyed.reaches_of_isPlanFor (surveyed : project.IsSurveyed disk packages)
    (listed : package ∈ packages) (placed : project.PackageAt way package)
    (grown : disk.GrowsTo later) (agrees : disk.AgreesOutside changed later)
    (kept : ∀ name, ¬ changed (project.homeOf way ++ [name]))
    (declared : Contract.ofPackage later project.settings.root package.directory
      package.fileNames = .ok contracts)
    (isPlan : project.IsPlanFor later found package.directory contracts plan) :
    ∀ name ∈ Sorting.distinct (plan.implementations.map Implementation.fileName),
      disk.Reaches (project.fullPath (Path.join plan.packagePath name))
        (project.homeOf way ++ [name]) := by
  have tree := surveyed.fileSystem.tree
  have root := surveyed.root (List.ne_nil_of_mem listed)
  have home := surveyed.valid.reaches_packagePath tree root placed isPlan.placed
  have scanned := sourceFiles_eq_of_agreesOutside tree grown agrees home kept
  intro name member
  apply reaches_join (Path.ne_nil_of_transplant isPlan.placed) _ home
  apply proper_of_isPlanFor declared isPlan _ name (Sorting.mem_distinct.mp member)
  intro file read
  have read : file ∈ Implementation.sourceFiles disk (project.fullPath plan.packagePath) := by
    rw [← scanned]
    exact read
  obtain ⟨location, _, inside⟩ := Implementation.mem_filesIn_of_mem_sourceFiles read
  exact surveyed.fileSystem.name_of_mem_filesIn inside

/-- A file of a package that stands at the top belongs to the package there. -/
theorem IsValid.join_packagePath_of_top (valid : project.IsValid)
    (placed : project.PackageAt way package) {packagePath name topName : Text}
    (transplanted : Path.transplant project.settings.apiDirectory
      project.settings.implementationDirectory package.directory = .ok packagePath)
    (onTop : project.homeOf way ++ [name] =
      project.location project.settings.implementationDirectory ++ [topName]) :
    Path.join packagePath name =
      Path.join project.settings.implementationDirectory topName := by
  rw [homeOf, List.append_assoc] at onTop
  have alone : way ++ [name] = [topName] := List.append_cancel_left onTop
  have nothing : way = [] := by
    cases way with
    | nil => rfl
    | cons _ _ => simp at alone
  have top := (valid.components_transplant placed transplanted).2.2 nothing
  rw [nothing] at alone
  rw [top, (List.cons.inj alone).1]

theorem nodup_location_of_isPlanFor
    (isPlan : project.IsPlanFor later found package.directory contracts plan)
    (reached : ∀ name ∈ Sorting.distinct (plan.implementations.map Implementation.fileName),
      disk.Reaches (project.fullPath (Path.join plan.packagePath name))
        (project.homeOf way ++ [name])) :
    (plan.files.map fun merged => project.location merged.path).Nodup := by
  have composed : (plan.files.map fun merged => project.location merged.path) =
      (plan.files.map Merged.path).map project.location := by
    rw [List.map_map]
    rfl
  have places : (plan.files.map fun merged => project.location merged.path) =
      (Sorting.distinct (plan.implementations.map Implementation.fileName)).map
        fun name => project.homeOf way ++ [name] := by
    rw [composed, path_of_isPlanFor isPlan, List.map_map]
    apply List.map_congr_left
    intro name member
    exact (reached name member).eq_place.symm
  rw [places]
  apply (Sorting.nodup_distinct _).map
  intro left right same
  simpa using same

/-- A plan that was made later on, for a package whose directory was not written
to before. -/
theorem IsSurveyed.isPlannedIn (surveyed : project.IsSurveyed disk packages)
    (listed : package ∈ packages) (placed : project.PackageAt way package)
    (grown : disk.GrowsTo later) (agrees : disk.AgreesOutside changed later)
    (kept : ∀ name, ¬ changed (project.homeOf way ++ [name]))
    (planned : (project.planPackage later found package.directory package.fileNames).result =
      .ok (some plan)) :
    (∀ merged ∈ plan.files, project.IsPlannedIn disk (project.homeOf way) merged) ∧
      (plan.files.map fun merged => project.location merged.path).Nodup := by
  have tree := surveyed.fileSystem.tree
  obtain ⟨contracts, declared, ⟨_, impossible⟩ | ⟨_, _, same, isPlan⟩⟩ :=
    result_planPackage_eq_ok_iff.mp planned
  · simp at impossible
  rw [← Option.some.inj same] at isPlan
  have reached :=
    surveyed.reaches_of_isPlanFor listed placed grown agrees kept declared isPlan
  refine ⟨?_, nodup_location_of_isPlanFor isPlan reached⟩
  intro merged member
  have onPath : merged.path ∈ plan.files.map Merged.path := List.mem_map_of_mem member
  rw [path_of_isPlanFor isPlan] at onPath
  obtain ⟨name, known, path⟩ := List.mem_map.mp onPath
  have reaches := reached name known
  rw [path] at reaches
  have place : project.location merged.path = project.homeOf way ++ [name] :=
    reaches.eq_place.symm
  obtain ⟨group, _, result⟩ := exists_related_left isPlan.merged merged member
  obtain ⟨module, _, isMerged⟩ := result_planFile_eq_ok_iff.mp result
  have previous := previous_of_isMergedFile isMerged
  rw [fileAt?_eq_of_agreesOutside tree grown agrees reaches (kept name)] at previous
  exact {
    reaches := place ▸ reaches
    inside := ⟨name, place⟩
    source := endsWith_path_of_isPlanFor isPlan merged member
    top := fun topName onTop =>
      path ▸ surveyed.valid.join_packagePath_of_top placed isPlan.placed (place ▸ onTop)
    readable := ⟨_, previous.symm⟩
    unchanged := Merged.isChanged_eq_false_iff_map previous
  }

end Later

end Project

end Scaffold
