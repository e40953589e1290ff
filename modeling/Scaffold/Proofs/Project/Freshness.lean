import Scaffold.Proofs.Project.Findings
import Scaffold.Proofs.Project.Rerun
import Scaffold.Proofs.Registry.Listing

/-!
# How long a registry stays current

Contracts come and go between runs.  A run that finds contracts leaves a registry
with one entry for each of them and no others, whatever the registry was before.
A run that finds none leaves the registry alone, so it goes on listing what an
earlier run found.
-/

namespace Scaffold

namespace Project

/-! ## The registry of one run -/

variable (project : Project)

/-- The entry of a contract names the options of its implementation in the
package that implements it. -/
def EntersContract (module : Module) (known : List Import) (contract : Contract)
    (entry : Text) : Prop :=
  ∃ home,
    Path.transplant project.settings.apiDirectory project.settings.implementationDirectory
        contract.packagePath = .ok home ∧
      Registry.Enters ⟨project.settings.root, module⟩
        (Path.normalize project.settings.implementationDirectory) known home
        (contract.qualify "Options") entry

/-- The registry on a disk lists one entry for each of some contracts and no
others, and refers to packages by the different names of its imports. -/
def Lists (disk : Disk) (module : Module) (contracts : List Contract) : Prop :=
  ∃ (rendered : Text) (known : List Import) (order : List Contract),
    project.registryText? disk project.settings.registryPath =
        .ok (some (Text.universalNewlines rendered)) ∧
      ImportBlock.render module.path [] (known.map fun spec => ⟨spec, []⟩) <:+: rendered ∧
      (known.map Import.referenceName).Nodup ∧
      order.Perm contracts ∧
      List.Forall₂ (project.EntersContract module known) order
        (Registry.listed (Text.universalNewlines rendered))

variable {project} {disk : Disk}

/-- A registry of implementations that have their places lists their contracts. -/
theorem lists_of_render {module : Module} {implementations : List Implementation} {rendered : Text}
    (placed : ∀ implementation ∈ implementations, project.IsPlaced implementation)
    (result : Registry.render ⟨project.settings.root, module⟩ project.current
      project.settings.implementationDirectory none implementations = .ok rendered)
    (read : project.registryText? disk project.settings.registryPath =
      .ok (some (Text.universalNewlines rendered))) :
    project.Lists disk module (implementations.map Implementation.contract) := by
  obtain ⟨known, names, block, entries⟩ := Registry.listed_of_render
    (fun implementation member => (placed implementation member).package.isWord)
    (fun implementation member => (placed implementation member).contract.isWord.word) result
  refine ⟨rendered, known, (Registry.sort implementations).map Implementation.contract, read,
    block, names, (Sorting.sort_perm _ implementations).map _, ?_⟩
  have sorted : ∀ implementation ∈ Registry.sort implementations,
      project.IsPlaced implementation :=
    fun implementation member => placed implementation ((Sorting.mem_sort _).mp member)
  rw [List.forall₂_map_left_iff]
  refine ((List.forall₂_and_left _ _).mpr ⟨sorted, entries⟩).imp ?_
  rintro implementation entry ⟨place, enters⟩
  exact ⟨implementation.packagePath, place.home, enters⟩

/-- A successful run registers the contracts that it finds, and without any it
changes nothing. -/
theorem exists_finds_of_run (plain : project.formatter = .none)
    (real : project.settings.isDryRun = false)
    (source : Text.endsWith Go.sourceSuffix project.settings.registryName = true)
    (tree : disk.IsTree) {final : Progress} {report : Report}
    (ran : project.run disk = (final, .ok report)) :
    ∃ contracts, project.Finds disk contracts ∧ report.contracts = contracts.length ∧
      (contracts = [] → final.disk = disk) ∧
      (contracts ≠ [] → ∃ module,
        Module.find disk project.current project.settings.root = .ok module ∧
          project.Lists final.disk module contracts) := by
  obtain ⟨packages, middle, outcome?, crawled, generated, registered, rfl⟩ :=
    run_eq_ok_iff.mp ran
  obtain ⟨contracts, added, reads, implementations, names, placed⟩ := generated.exists_reads
  rw [List.nil_append] at implementations
  have kept : final.implementations = middle.implementations := by
    cases registered with
    | nothing _ => rfl
    | written _ _ written => exact written.progress_eq.2.1
  have count : (project.reportOf final outcome?).contracts = contracts.length := by
    rw [reportOf, kept, implementations, ← names, List.length_map]
  refine ⟨contracts, ⟨packages, crawled, reads⟩, count, ?_, ?_⟩
  · rintro rfl
    have nothing : middle.implementations = [] :=
      implementations.trans (List.map_eq_nil_iff.mp names)
    cases registered with
    | nothing _ => exact (generated.eq_of_nothing nothing).1
    | written something _ _ => exact absurd nothing something
  · intro some
    have something : middle.implementations ≠ [] := by
      rw [implementations]
      rintro rfl
      exact some names.symm
    obtain ⟨module, rendered, known, result, read⟩ := registryText?_of_registers plain real source
      registered (generated.growsTo tree).tree something
    refine ⟨module, known, ?_⟩
    rw [← names]
    exact lists_of_render placed (implementations ▸ result) read

/-! ## Histories -/

/-- The disk on which the last run was made that found contracts, after one more
run. -/
def latest (report : Report) (disk : Disk) (last? : Option Disk) : Option Disk :=
  if report.contracts = 0 then last? else some disk

variable (project)

/-- A history of edits that spare the registry and of successful runs leads to a
disk.  It knows the disk on which the last run was made that found contracts. -/
inductive History (start : Disk) : Disk → Option Disk → Prop where
  | start (fileSystem : start.IsFileSystem) : History start start none
  | edited {disk last? later} (before : History start disk last?)
      (fileSystem : later.IsFileSystem)
      (kept : later.fileAt? (project.fullPath project.settings.registryPath) =
        disk.fileAt? (project.fullPath project.settings.registryPath)) :
      History start later last?
  | ran {disk last? final report} (before : History start disk last?)
      (ran : project.run disk = (final, .ok report)) :
      History start final.disk (latest report disk last?)

/-- The registry lists what the last run that found contracts has found.  Without
such a run it is as it was at the start. -/
def Reflects (start disk : Disk) : Option Disk → Prop
  | none =>
    disk.fileAt? (project.fullPath project.settings.registryPath) =
      start.fileAt? (project.fullPath project.settings.registryPath)
  | some before =>
    ∃ contracts module, project.Finds before contracts ∧ contracts ≠ [] ∧
      Module.find before project.current project.settings.root = .ok module ∧
      project.Lists disk module contracts

variable {project}

/-- What a registry lists depends on its file only. -/
theorem Lists.of_fileAt? {later : Disk} {module : Module} {contracts : List Contract}
    (lists : project.Lists disk module contracts)
    (kept : later.fileAt? (project.fullPath project.settings.registryPath) =
      disk.fileAt? (project.fullPath project.settings.registryPath)) :
    project.Lists later module contracts := by
  obtain ⟨rendered, imports, order, read, rest⟩ := lists
  refine ⟨rendered, imports, order, ?_, rest⟩
  rw [registryText?, kept]
  exact read

theorem Reflects.of_fileAt? {start later : Disk} {last? : Option Disk}
    (reflects : project.Reflects start disk last?)
    (kept : later.fileAt? (project.fullPath project.settings.registryPath) =
      disk.fileAt? (project.fullPath project.settings.registryPath)) :
    project.Reflects start later last? := by
  cases last? with
  | none => exact kept.trans reflects
  | some before =>
      obtain ⟨contracts, module, finds, some, known, lists⟩ := reflects
      exact ⟨contracts, module, finds, some, known, lists.of_fileAt? kept⟩

theorem History.reflects (isValid : project.IsValid) (plain : project.formatter = .none)
    (real : project.settings.isDryRun = false) {start : Disk} {last? : Option Disk}
    (history : project.History start disk last?) :
    disk.IsFileSystem ∧ project.Reflects start disk last? := by
  induction history with
  | start fileSystem => exact ⟨fileSystem, rfl⟩
  | edited _ fileSystem kept induction => exact ⟨fileSystem, induction.2.of_fileAt? kept⟩
  | @ran disk last? final report _ ran induction =>
      obtain ⟨fileSystem, reflects⟩ := induction
      refine ⟨isFileSystem_of_run isValid real fileSystem ran, ?_⟩
      obtain ⟨contracts, finds, count, idle, lists⟩ := exists_finds_of_run plain real
        (Bool.and_eq_true_iff.mp isValid.registry).1 fileSystem.tree ran
      unfold latest
      by_cases nothing : contracts = []
      · rw [if_pos (by rw [count, nothing, List.length_nil]), idle nothing]
        exact reflects
      · obtain ⟨module, known, listed⟩ := lists nothing
        rw [if_neg (by rwa [count, List.length_eq_zero_iff])]
        exact ⟨contracts, module, finds, nothing, known, listed⟩

/-- After a run that finds contracts, at the end of any history, the registry
lists each of them once and no others.  A run that finds none leaves the registry
with what an earlier run found.  Where the directories are apart, the contracts
found are those of the API directory before and after the run. -/
theorem registry_of_history {current : Text} {toolbox : Toolbox} {settings : Settings}
    (valid : Settings.validate settings.toValue = .ok ())
    (made : setUp current toolbox settings = .ok project) (plain : project.formatter = .none)
    (real : project.settings.isDryRun = false) {start : Disk} {last? : Option Disk}
    (history : project.History start disk last?) {final : Progress} {report : Report}
    (ran : project.run disk = (final, .ok report)) :
    ∃ contracts, project.Finds disk contracts ∧ report.contracts = contracts.length ∧
      (contracts ≠ [] → ∃ module,
        Module.find disk project.current project.settings.root = .ok module ∧
          project.Lists final.disk module contracts) ∧
      (contracts = [] → final.disk = disk ∧ project.Reflects start disk last?) ∧
      (project.IsApart →
        project.Declares disk contracts ∧ project.Declares final.disk contracts) := by
  have isValid := isValid_of_setUp valid made
  have source := (Bool.and_eq_true_iff.mp isValid.registry).1
  obtain ⟨fileSystem, reflects⟩ := history.reflects isValid plain real
  obtain ⟨contracts, finds, count, idle, lists⟩ :=
    exists_finds_of_run plain real source fileSystem.tree ran
  refine ⟨contracts, finds, count, lists, fun nothing => ⟨idle nothing, reflects⟩, ?_⟩
  intro apart
  have declares := finds.declares isValid real fileSystem apart
  exact ⟨declares, declares.of_builds isValid fileSystem apart
    (growsTo_of_run ran fileSystem.tree source) (builds_of_run isValid real fileSystem ran)⟩

/-! ## The last contract -/

theorem Lists.length_eq {module other : Module} {contracts others : List Contract}
    (lists : project.Lists disk module contracts) (again : project.Lists disk other others) :
    contracts.length = others.length := by
  obtain ⟨first, _, order, read, _, _, perm, entries⟩ := lists
  obtain ⟨second, _, otherOrder, readAgain, _, _, otherPerm, otherEntries⟩ := again
  rw [read, Except.ok.injEq, Option.some.injEq] at readAgain
  rw [← perm.length_eq, ← otherPerm.length_eq, entries.length_eq, otherEntries.length_eq, readAgain]

theorem exists_report_of_contracts {count : Nat}
    (counted : (project.run disk).2.toOption.map Report.contracts = some count) :
    ∃ report, project.run disk = ((project.run disk).1, .ok report) ∧
      report.contracts = count := by
  cases result : (project.run disk).2 with
  | error fault => simp [result, Except.toOption] at counted
  | ok report =>
      rw [result] at counted
      exact ⟨report, by rw [← result], Option.some.inj counted⟩

/-- A run that finds one contract leaves a registry that does not stand for an
API directory without contracts. -/
theorem not_lists_nil_of_run (plain : project.formatter = .none)
    (real : project.settings.isDryRun = false)
    (source : Text.endsWith Go.sourceSuffix project.settings.registryName = true)
    (tree : disk.IsTree) {final : Progress} {report : Report}
    (ran : project.run disk = (final, .ok report)) (one : report.contracts = 1) (module : Module) :
    ¬ project.Lists final.disk module [] := by
  intro empty
  obtain ⟨contracts, _, count, _, lists⟩ := exists_finds_of_run plain real source tree ran
  have length : contracts.length = 1 := count.symm.trans one
  obtain ⟨found, _, listed⟩ := lists fun nothing => by simp [nothing] at length
  have same := listed.length_eq empty
  rw [length] at same
  simp at same

theorem declares_nil (packages : List Package)
    (crawled : Package.crawl disk project.settings.root project.settings.apiDirectory =
      .ok packages)
    (nothing : ∀ package ∈ packages,
      Contract.ofPackage disk project.settings.root package.directory package.fileNames =
        .ok []) :
    project.Declares disk [] := by
  refine ⟨packages, packages.map fun _ => [], crawled, ?_, by simp⟩
  rw [List.forall₂_map_right_iff]
  exact List.forall₂_same.mpr nothing

theorem isValid_plainProject : plainProject.IsValid := by
  have valid : Settings.validate (plainSettings "r.go").toValue = .ok () := by decide +kernel
  have made : setUp "/p" plainProject.toolbox (plainSettings "r.go") = .ok plainProject := by
    rfl
  exact isValid_of_setUp valid made

theorem isApart_plainProject : plainProject.IsApart :=
  ⟨by decide +kernel, by decide +kernel⟩

/-- One contract, whose backing type is written. -/
def loneDisk : Disk :=
  smallDisk "package a\ntype ARepository interface\x7b\x7d\n"

theorem isFileSystem_loneDisk : loneDisk.IsFileSystem :=
  ⟨isTree_smallDisk _, by decide +kernel⟩

theorem exists_report_loneDisk :
    ∃ report, plainProject.run loneDisk = ((plainProject.run loneDisk).1, .ok report) ∧
      report.contracts = 1 :=
  exists_report_of_contracts (by decide +kernel)

/-- The disk that the run leaves, with another file of contracts. -/
def editedDisk (source : Text) : Disk :=
  (plainProject.run loneDisk).1.disk.put ["p", "api", "a.go"] (.file (Utf8.encode source))

/-- The edit spares the registry. -/
theorem exists_edit_editedDisk (source : Text) :
    (∃ last?, plainProject.History loneDisk (editedDisk source) last?) ∧
      (editedDisk source).fileAt?
          (plainProject.fullPath plainProject.settings.registryPath) =
        (plainProject.run loneDisk).1.disk.fileAt?
          (plainProject.fullPath plainProject.settings.registryPath) := by
  obtain ⟨report, ran, _⟩ := exists_report_loneDisk
  have fileSystem := isFileSystem_of_run isValid_plainProject rfl isFileSystem_loneDisk ran
  have builds := builds_of_run isValid_plainProject rfl isFileSystem_loneDisk ran
  have outside : ¬ plainProject.location plainProject.settings.implementationDirectory <+:
      ["p", "api", "a.go"] := by
    decide +kernel
  have file := (builds.agreesOutside.contents _ outside).trans rfl
  have kept : (editedDisk source).fileAt?
      (plainProject.fullPath plainProject.settings.registryPath) =
        (plainProject.run loneDisk).1.disk.fileAt?
          (plainProject.fullPath plainProject.settings.registryPath) :=
    fileSystem.fileAt?_replaceFile file _ (by decide +kernel) (by decide +kernel)
  have history := History.edited (.ran (.start isFileSystem_loneDisk) ran)
    (fileSystem.replaceFile file _) kept
  exact ⟨⟨_, history⟩, kept⟩

/-- Two contracts in place of the first one. -/
def renewedSource : Text :=
  ("package a\ntype BRepository interface\x7b Get() \x7d\n" : Text) ++
    "type CRepository interface\x7b\x7d\n"

def renewedDisk : Disk :=
  editedDisk renewedSource

/-- A run, an edit and a run: the registry lists the two contracts that are there
now. -/
theorem registry_of_history_renewedDisk :
    ∃ last? report contracts,
      plainProject.History loneDisk renewedDisk last? ∧
        plainProject.run renewedDisk = ((plainProject.run renewedDisk).1, .ok report) ∧
        contracts.length = 2 ∧
        plainProject.Declares (plainProject.run renewedDisk).1.disk contracts ∧
        ∃ module, plainProject.Lists (plainProject.run renewedDisk).1.disk module contracts := by
  have valid : Settings.validate (plainSettings "r.go").toValue = .ok () := by decide +kernel
  have made : setUp "/p" plainProject.toolbox (plainSettings "r.go") = .ok plainProject := by
    rfl
  obtain ⟨⟨last?, history⟩, _⟩ := exists_edit_editedDisk renewedSource
  have counted : (plainProject.run renewedDisk).2.toOption.map Report.contracts = some 2 := by
    decide +kernel
  obtain ⟨report, ran, two⟩ := exists_report_of_contracts counted
  obtain ⟨contracts, _, count, lists, _, declares⟩ :=
    registry_of_history valid made rfl rfl history ran
  have length : contracts.length = 2 := count.symm.trans two
  obtain ⟨module, _, listed⟩ := lists fun nothing => by simp [nothing] at length
  exact ⟨last?, report, contracts, history, ran, length, (declares isApart_plainProject).2,
    module, listed⟩

/-- The disk that the run leaves, without the contract. -/
def emptiedDisk : Disk :=
  editedDisk "package a\n"

theorem exists_history_emptiedDisk :
    (∃ last?, plainProject.History loneDisk emptiedDisk last?) ∧
      ∀ module, ¬ plainProject.Lists emptiedDisk module [] := by
  obtain ⟨report, ran, one⟩ := exists_report_loneDisk
  obtain ⟨history, kept⟩ := exists_edit_editedDisk "package a\n"
  refine ⟨history, fun module empty => ?_⟩
  exact not_lists_nil_of_run rfl rfl (by decide +kernel) (isTree_smallDisk _) ran one module
    (empty.of_fileAt? kept.symm)

/-- A project that keeps contracts and implementations in one directory. -/
def sharedProject : Project :=
  { plainProject with settings := { plainProject.settings with apiDirectory := "i" } }

/-- A contract in the file of the registry. -/
def sharedDisk : Disk where
  entries :=
    [(["p"], .directory), (["p", "go.mod"], .file (Utf8.encode "module m\n")),
      (["p", "i"], .directory),
      (["p", "i", "a_impl.go"], .file (Utf8.encode "package i\ntype aRepositoryImpl int\n")),
      (["p", "i", "r.go"],
        .file (Utf8.encode "package i\ntype ARepository interface\x7b\x7d\n"))]

/-- A registry outlives the last contract, since a run without contracts leaves
it alone, and a contract that stood in the place of the registry is gone with the
run that registers it. -/
theorem registry_outlives_contracts :
    (∃ last? report,
      plainProject.History loneDisk emptiedDisk last? ∧
        plainProject.run emptiedDisk = ((plainProject.run emptiedDisk).1, .ok report) ∧
        plainProject.Declares (plainProject.run emptiedDisk).1.disk [] ∧
        ∀ module, ¬ plainProject.Lists (plainProject.run emptiedDisk).1.disk module []) ∧
    ∃ report,
      sharedProject.run sharedDisk = ((sharedProject.run sharedDisk).1, .ok report) ∧
        sharedProject.Declares (sharedProject.run sharedDisk).1.disk [] ∧
        ∀ module, ¬ sharedProject.Lists (sharedProject.run sharedDisk).1.disk module [] := by
  constructor
  · obtain ⟨⟨last?, history⟩, stale⟩ := exists_history_emptiedDisk
    have counted : (plainProject.run emptiedDisk).2.toOption.map Report.contracts = some 0 := by
      decide +kernel
    obtain ⟨report, ran, none⟩ := exists_report_of_contracts counted
    have fileSystem := (history.reflects isValid_plainProject rfl rfl).1
    obtain ⟨contracts, finds, count, idle, _⟩ :=
      exists_finds_of_run rfl rfl (by decide +kernel) fileSystem.tree ran
    obtain rfl : contracts = [] := List.length_eq_zero_iff.mp (count.symm.trans none)
    refine ⟨last?, report, history, ran, ?_, ?_⟩
    · rw [idle rfl]
      exact finds.declares isValid_plainProject rfl fileSystem isApart_plainProject
    · rw [idle rfl]
      exact stale
  · have counted : (sharedProject.run sharedDisk).2.toOption.map Report.contracts = some 1 := by
      decide +kernel
    obtain ⟨report, ran, one⟩ := exists_report_of_contracts counted
    have tree : sharedDisk.IsTree := Disk.isTree_of_entries (by decide +kernel)
    exact ⟨report, ran,
      declares_nil [⟨"i", ["a_impl.go", "r.go"]⟩] (by decide +kernel) (by decide +kernel),
      not_lists_nil_of_run rfl rfl (by decide +kernel) tree ran one⟩

end Project

end Scaffold
