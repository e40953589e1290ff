import Scaffold.Proofs.Disk.Building
import Scaffold.Proofs.Implementation.PackageNames
import Scaffold.Proofs.Project.Rehearsal

/-!
# What a run finds

A run reads the contracts of one package after the other, each on the disk that
the packages before it left, and implements exactly those.  It writes below the
implementation directory only, so where the directories are apart it finds what
the API directory declares before the run, and still declares after it.
-/

namespace Scaffold

open Go (IsIdentifier)

namespace Contract

theorem packagePath_of_ofPackage {disk : Disk} {root packagePath : Text} {fileNames : List Text}
    {contracts : List Contract}
    (result : ofPackage disk root packagePath fileNames = .ok contracts) :
    ∀ contract ∈ contracts, contract.packagePath = packagePath := by
  intro contract member
  obtain ⟨_, _, _, _, listed⟩ := exists_source_of_mem_ofPackage _ result contract member
  obtain ⟨before, _, rfl⟩ := List.mem_map.mp listed
  rfl

/-- The contracts of a package are named by identifiers, and so is their package. -/
theorem isIdentifier_of_ofPackage {disk : Disk} {root packagePath : Text}
    {fileNames : List Text} {contracts : List Contract}
    (result : ofPackage disk root packagePath fileNames = .ok contracts) :
    ∀ contract ∈ contracts,
      IsIdentifier contract.packageName ∧ IsIdentifier contract.name := by
  intro contract member
  obtain ⟨_, _, _, extracted, listed⟩ := exists_source_of_mem_ofPackage _ result contract member
  obtain ⟨before, known, rfl⟩ := List.mem_map.mp listed
  exact ⟨isIdentifier_packageName_of_ofSource extracted before known,
    isIdentifier_name_of_ofSource extracted before known⟩

end Contract

namespace Project

/-! ## Contracts that are read -/

variable (project : Project) (found : Except ModuleFault Module)

/-- Generating packages one after the other reads some contracts. -/
inductive Reads : Progress → List Package → List Contract → Prop where
  | nil {progress} : Reads progress [] []
  | cons {progress package contracts middle rest others}
      (declared : Contract.ofPackage progress.disk project.settings.root package.directory
        package.fileNames = .ok contracts)
      (generated : project.Generates found progress package middle)
      (later : Reads middle rest others) :
      Reads progress (package :: rest) (contracts ++ others)

/-- The contracts that a run on a disk reads. -/
def Finds (disk : Disk) (contracts : List Contract) : Prop :=
  ∃ packages,
    Package.crawl disk project.settings.root project.settings.apiDirectory = .ok packages ∧
      project.Reads (Module.find disk project.current project.settings.root) { disk := disk }
        packages contracts

/-- The contracts that the API directory of a disk declares. -/
def Declares (disk : Disk) (contracts : List Contract) : Prop :=
  ∃ packages parts,
    Package.crawl disk project.settings.root project.settings.apiDirectory = .ok packages ∧
      List.Forall₂
        (fun package part =>
          Contract.ofPackage disk project.settings.root package.directory package.fileNames =
            .ok part)
        packages parts ∧
      contracts = parts.flatten

/-- The implementation has its place in the implementation directory, and its
names are identifiers. -/
structure IsPlaced (implementation : Implementation) : Prop where
  home : Path.transplant project.settings.apiDirectory project.settings.implementationDirectory
    implementation.contract.packagePath = .ok implementation.packagePath
  package : IsIdentifier implementation.packageName
  contract : IsIdentifier implementation.contract.name

variable {project found} {disk : Disk}

theorem IsPlanFor.isPlaced {directory : Text} {fileNames : List Text} {contracts : List Contract}
    {plan : Plan} {other : Disk} (something : contracts ≠ [])
    (declared : Contract.ofPackage other project.settings.root directory fileNames = .ok contracts)
    (planned : project.IsPlanFor disk found directory contracts plan) :
    plan.implementations.map Implementation.contract = contracts ∧
      ∀ implementation ∈ plan.implementations, project.IsPlaced implementation := by
  obtain ⟨facts, collected, listed⟩ := planned.scanned
  have packageProper : IsIdentifier (facts.package?.getD (implementationPackageName
      ((contracts.head?.map Contract.packageName).getD []))) := by
    cases package : facts.package? with
    | some name =>
        exact PackageFacts.isIdentifier_package_of_collect _ (fun _ none => by simp at none)
          collected name package
    | none =>
        obtain ⟨first, rest, rfl⟩ := List.exists_cons_of_ne_nil something
        exact isIdentifier_implementationPackageName
          (Contract.isIdentifier_of_ofPackage declared first List.mem_cons_self).1
  rw [listed, implementationsOf]
  constructor
  · rw [List.map_map]
    exact (List.map_congr_left fun contract _ =>
      facts.contract_implementation _ _ contract).trans (List.map_id contracts)
  · intro implementation member
    obtain ⟨contract, inside, rfl⟩ := List.mem_map.mp member
    obtain ⟨own, name, path⟩ := facts.implementation_eq
      (facts.package?.getD (implementationPackageName
        ((contracts.head?.map Contract.packageName).getD []))) plan.packagePath contract
    refine ⟨?_, name.symm ▸ packageProper, ?_⟩
    · rw [own, path, Contract.packagePath_of_ofPackage declared contract inside]
      exact planned.placed
    · rw [own]
      exact (Contract.isIdentifier_of_ofPackage declared contract inside).2

/-- A package that is generated is read, and its contracts are implemented. -/
theorem Generates.exists_contracts {progress next : Progress} {package : Package}
    (generated : project.Generates found progress package next) :
    ∃ contracts added,
      Contract.ofPackage progress.disk project.settings.root package.directory
          package.fileNames = .ok contracts ∧
        next.implementations = progress.implementations ++ added ∧
        added.map Implementation.contract = contracts ∧
        ∀ implementation ∈ added, project.IsPlaced implementation := by
  cases generated with
  | without planned =>
      obtain ⟨contracts, declared, ⟨rfl, _⟩ | ⟨_, _, impossible, _⟩⟩ :=
        result_planPackage_eq_ok_iff.mp planned
      · exact ⟨[], [], declared, (List.append_nil _).symm, rfl, by simp⟩
      · simp at impossible
  | @implemented plan _ planned written =>
      obtain ⟨contracts, declared, ⟨_, impossible⟩ | ⟨something, _, same, isPlan⟩⟩ :=
        result_planPackage_eq_ok_iff.mp planned
      · simp at impossible
      · rw [← Option.some.inj same] at isPlan
        obtain ⟨own, placed⟩ := isPlan.isPlaced something declared
        exact ⟨contracts, plan.implementations, declared, written.progress_eq.2.1, own, placed⟩

/-- The implementations of a run are those of the contracts that it reads. -/
theorem GeneratesAll.exists_reads {progress next : Progress} {packages : List Package}
    (generated : project.GeneratesAll found progress packages next) :
    ∃ contracts added,
      project.Reads found progress packages contracts ∧
        next.implementations = progress.implementations ++ added ∧
        added.map Implementation.contract = contracts ∧
        ∀ implementation ∈ added, project.IsPlaced implementation := by
  induction generated with
  | nil => exact ⟨[], [], .nil, (List.append_nil _).symm, rfl, by simp⟩
  | cons first _ induction =>
      obtain ⟨contracts, added, declared, own, names, placed⟩ := first.exists_contracts
      obtain ⟨others, more, reads, later, otherNames, otherPlaced⟩ := induction
      refine ⟨contracts ++ others, added ++ more, .cons declared first reads, ?_, ?_, ?_⟩
      · rw [later, own, List.append_assoc]
      · rw [List.map_append, names, otherNames]
      · intro implementation member
        rcases List.mem_append.mp member with here | there
        · exact placed implementation here
        · exact otherPlaced implementation there

/-! ## What a run builds -/

theorem builds_of_store {stored : Disk} {path text : Text}
    (result : project.store disk path text = .ok stored) :
    Disk.Builds (· = project.location path) disk stored := by
  obtain ⟨prepared, made, written⟩ := store_eq_ok_iff.mp result
  exact (Disk.builds_of_makeDirectories made).trans (Disk.builds_of_write written)

theorem Stores.builds {after : Disk} {stored : List Merged}
    (stores : project.Stores disk stored after) :
    Disk.Builds (fun location => ∃ merged ∈ stored, location = project.location merged.path)
      disk after := by
  induction stores with
  | nil => exact .refl
  | @cons _ merged _ _ _ first _ induction =>
      refine ((builds_of_store first).mono ?_).trans (induction.mono ?_)
      · intro location same
        exact ⟨merged, List.mem_cons_self, same⟩
      · rintro location ⟨other, member, same⟩
        exact ⟨other, List.mem_cons_of_mem merged member, same⟩

/-- A run writes below the implementation directory only, whatever its outcome
is. -/
theorem builds_of_run (isValid : project.IsValid) (real : project.settings.isDryRun = false)
    (fileSystem : disk.IsFileSystem) {progress : Progress} {result : Except RunFault Report}
    (ran : project.run disk = (progress, result)) :
    Disk.Builds (project.location project.settings.implementationDirectory <+: ·) disk
      progress.disk := by
  rcases run_cases real ran with
    ⟨same, _⟩ | ⟨packages, middle, stored, crawled, stores, beginning, registry⟩
  · exact same ▸ .refl
  · have surveyed : project.IsSurveyed disk packages := ⟨isValid, fileSystem, crawled⟩
    have some := beginning.sublist.trans (changedFiles_sublist (project.history disk))
    have planned : Disk.Builds
        (project.location project.settings.implementationDirectory <+: ·) disk middle := by
      apply stores.builds.mono
      rintro location ⟨merged, member, rfl⟩
      exact surveyed.location_of_planned real (some.subset member)
    rcases registry with same | ⟨something, text, store⟩
    · exact same ▸ planned
    · refine planned.trans ((builds_of_store store).mono ?_)
      rintro location rfl
      rw [(surveyed.reaches_registryPath something).2]
      exact List.prefix_append _ _

theorem isFileSystem_of_run (isValid : project.IsValid)
    (real : project.settings.isDryRun = false) (fileSystem : disk.IsFileSystem)
    {final : Progress} {report : Report} (ran : project.run disk = (final, .ok report)) :
    final.disk.IsFileSystem where
  tree := (growsTo_of_run ran fileSystem.tree (Bool.and_eq_true_iff.mp isValid.registry).1).tree
  names := (builds_of_run isValid real fileSystem ran).isProper fileSystem.names

/-! ## Directories that are apart -/

/-- What is read on the way is what the disk before the run declares. -/
theorem Reads.exists_parts {packages : List Package} (real : project.settings.isDryRun = false)
    (surveyed : project.IsSurveyed disk packages) (apart : project.IsApart) {progress : Progress}
    {rest : List Package} {contracts : List Contract}
    (reads : project.Reads found progress rest contracts) :
    ∀ {done}, project.IsBehind disk done progress.disk →
      (∀ package ∈ done ++ rest, package ∈ packages) → (done ++ rest).Nodup →
        ∃ parts, contracts = parts.flatten ∧
          List.Forall₂
            (fun package part =>
              Contract.ofPackage disk project.settings.root package.directory
                package.fileNames = .ok part)
            rest parts := by
  induction reads with
  | nil => exact fun _ _ _ => ⟨[], rfl, .nil⟩
  | @cons progress package contracts middle rest others declared first later induction =>
      intro done behind listed distinct
      have member : package ∈ packages := listed package (by simp)
      have earlier : ∀ other ∈ done, other ∈ packages := fun other old =>
        listed other (List.mem_append_left _ old)
      have new : package ∉ done := by
        intro old
        exact (List.nodup_append.mp distinct).2.2 package old package List.mem_cons_self rfl
      obtain ⟨way, placed⟩ :=
        Package.exists_isAt_of_crawl surveyed.fileSystem surveyed.crawled package member
      obtain ⟨own, _⟩ := behind.planning found surveyed member earlier new placed
      have step := behind.generatePackage real placed own (generatePackage_eq_ok_iff.mpr first)
      obtain ⟨parts, same, all⟩ := induction step (by simpa using listed) (by simpa using distinct)
      exact ⟨contracts :: parts, by rw [List.flatten_cons, same],
        .cons (behind.ofPackage_eq surveyed apart member placed declared) all⟩

theorem Finds.declares (isValid : project.IsValid) (real : project.settings.isDryRun = false)
    (fileSystem : disk.IsFileSystem) (apart : project.IsApart) {contracts : List Contract}
    (finds : project.Finds disk contracts) : project.Declares disk contracts := by
  obtain ⟨packages, crawled, reads⟩ := finds
  have surveyed : project.IsSurveyed disk packages := ⟨isValid, fileSystem, crawled⟩
  obtain ⟨parts, same, all⟩ := reads.exists_parts real surveyed apart surveyed.isBehind
    (fun _ member => member) surveyed.nodup
  exact ⟨packages, parts, crawled, all, same⟩

theorem IsApart.outside (apart : project.IsApart) {location : Location}
    (below : project.location project.settings.implementationDirectory <+: location) :
    ¬ project.location project.settings.apiDirectory <+: location := by
  intro inside
  cases List.prefix_or_prefix_of_prefix inside below with
  | inl above => exact apart.contracts above
  | inr above => exact apart.implementations above

/-- The packages are found again where nothing was written among them. -/
theorem IsApart.crawl_eq (apart : project.IsApart) {after : Disk} (grown : disk.GrowsTo after)
    (builds : Disk.Builds (project.location project.settings.implementationDirectory <+: ·)
      disk after) {packages : List Package}
    (crawled : Package.crawl disk project.settings.root project.settings.apiDirectory =
      .ok packages) :
    Package.crawl after project.settings.root project.settings.apiDirectory = .ok packages := by
  obtain ⟨location, present, located, outcome⟩ := Package.crawl_eq_ok_iff.mp crawled
  obtain ⟨_, reached, same, entry⟩ := Disk.at?_eq_directory_iff.mp present
  rw [located, Except.ok.injEq] at same
  subst same
  have place : location = project.location project.settings.apiDirectory := by
    unfold Disk.locate at located
    cases walked : disk.walk [] (Path.components
        (Path.within project.settings.root project.settings.apiDirectory)) with
    | error fault => simp [walked] at located
    | ok last =>
        simp only [walked] at located
        split at located
        · simp at located
        · rw [← Except.ok.inj located]
          exact Disk.walk_eq_place walked
  have files : Package.found after location = Package.found disk location := by
    unfold Package.found
    rw [builds.filesBelow fun other below => place ▸ apart.outside below]
  exact Package.crawl_eq_ok_iff.mpr
    ⟨location, grown.at?_directory present, grown.locate_directory located entry,
      files.symm ▸ outcome⟩

theorem Declares.of_builds (isValid : project.IsValid) (fileSystem : disk.IsFileSystem)
    (apart : project.IsApart) {after : Disk} (grown : disk.GrowsTo after)
    (builds : Disk.Builds (project.location project.settings.implementationDirectory <+: ·)
      disk after) {contracts : List Contract} (declares : project.Declares disk contracts) :
    project.Declares after contracts := by
  obtain ⟨packages, parts, crawled, all, same⟩ := declares
  refine ⟨packages, parts, apart.crawl_eq grown builds crawled, ?_, same⟩
  have listed : List.Forall₂ (fun package part => package ∈ packages ∧
      Contract.ofPackage disk project.settings.root package.directory package.fileNames =
        .ok part) packages parts :=
    (List.forall₂_and_left _ _).mpr ⟨fun _ member => member, all⟩
  refine listed.imp ?_
  rintro package part ⟨member, declared⟩
  obtain ⟨way, placed⟩ := Package.exists_isAt_of_crawl fileSystem crawled package member
  have directory := Package.reaches_directory isValid.up_not_mem_root crawled member placed
  apply Contract.ofPackage_of_readable package.fileNames _ declared
  intro name inside content read
  have reaches : disk.Reaches (project.fullPath (Path.join package.directory name)) _ :=
    reaches_join placed.directory_ne_nil (placed.files name inside) directory
  rw [Disk.read_eq_ok_iff] at read ⊢
  have there := (reaches.fileAt?_eq_some_iff fileSystem.tree).mp read
  refine ((reaches.of_growsTo grown).fileAt?_eq_some_iff grown.tree).mpr ⟨there.1, ?_⟩
  rw [builds.agreesOutside.contents _ fun below => apart.outside below ?_]
  · exact there.2
  · rw [List.append_assoc]
    exact List.prefix_append _ _

end Project

end Scaffold
