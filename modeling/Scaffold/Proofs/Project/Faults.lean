import Scaffold.Proofs.Disk.NullCharacter
import Scaffold.Proofs.Project.Findings

/-!
# Faults of single steps

Packages are read from the disk, so their paths hold the character zero only if
the settings do.  Planning a package therefore fails in a documented way, and
writing its files fails in another way only where the implementation directory
holds the character zero.
-/

namespace Scaffold

open Path (IsComponent)

namespace Attempt

variable {Fault Other Result Next : Type}

theorem result_andThen_eq_error_iff
    {attempt : Attempt Fault Result} {next : Result → Attempt Fault Next} {fault : Fault} :
    (attempt.andThen next).result = .error fault ↔
      attempt.result = .error fault ∨
        ∃ middle, attempt.result = .ok middle ∧ (next middle).result = .error fault := by
  unfold andThen
  cases reached : attempt.result with
  | error fault => simp
  | ok middle => simp

theorem result_mapFault_eq_error_iff
    {attempt : Attempt Fault Result} {change : Fault → Other} {fault : Other} :
    (attempt.mapFault change).result = .error fault ↔
      ∃ before, attempt.result = .error before ∧ change before = fault := by
  unfold mapFault
  cases attempt.result <;> simp [Except.mapError]

end Attempt

namespace Contract

theorem fileName_of_ofPackage {disk : Disk} {root packagePath : Text} (fileNames : List Text) :
    ∀ {contracts}, ofPackage disk root packagePath fileNames = .ok contracts →
      ∀ contract ∈ contracts, contract.fileName ∈ fileNames := by
  induction fileNames with
  | nil =>
      intro contracts result contract member
      rw [← Except.ok.inj result] at member
      simp at member
  | cons fileName rest induction =>
      intro contracts result contract member
      rw [ofPackage] at result
      split at result
      · simp at result
      · split at result
        · simp at result
        · split at result
          · simp at result
          · rename_i others later
            rw [← Except.ok.inj result] at member
            cases List.mem_append.mp member with
            | inl here =>
                obtain ⟨_, _, rfl⟩ := List.mem_map.mp here
                exact List.mem_cons_self
            | inr there => exact List.mem_cons_of_mem _ (induction later contract there)

/-- Files whose paths do not hold the character zero are not turned down for
it. -/
theorem isNullCharacter_of_ofPackage {disk : Disk} {root packagePath : Text}
    (fileNames : List Text) {fault : PackageFault} :
    (∀ name ∈ fileNames,
      Disk.holdsNull (Path.within root (Path.join packagePath name)) = false) →
      ofPackage disk root packagePath fileNames = .error fault →
        (PlanFault.contracts fault).isNullCharacter = false := by
  induction fileNames with
  | nil => simp [ofPackage]
  | cons fileName rest induction =>
      intro clean result
      rw [ofPackage] at result
      split at result
      · rename_i access failed
        rw [← Except.error.inj result]
        cases access with
        | failed => rfl
        | nullCharacter =>
            have here := clean fileName List.mem_cons_self
            rw [Disk.read_eq_nullCharacter_iff.mp failed] at here
            exact absurd here (by simp)
      · split at result
        · rw [← Except.error.inj result]
          rfl
        · split at result
          · rename_i later
            apply induction (fun name member => clean name (List.mem_cons_of_mem _ member))
            rw [← Except.error.inj result]
            exact later
          · simp at result

end Contract

namespace Project

variable {project : Project} {found : Except ModuleFault Module} {disk : Disk}

/-! ## Planning -/

theorem isNullCharacter_of_planFile {path : Text} {implementations : List Implementation}
    {fault : PlanFault}
    (failed : (project.planFile disk found path implementations).result = .error fault) :
    fault.isNullCharacter = false := by
  unfold planFile at failed
  split at failed
  · rw [← Except.error.inj failed]
    rfl
  · split at failed
    · rw [← Except.error.inj failed]
      rfl
    · rcases Attempt.result_andThen_eq_error_iff.mp failed with formatted | ⟨_, _, impossible⟩
      · obtain ⟨before, _, rfl⟩ := Attempt.result_mapFault_eq_error_iff.mp formatted
        rfl
      · simp at impossible

theorem isNullCharacter_of_planFiles {packagePath : Text} {fault : PlanFault}
    (groups : List (Text × List Implementation)) :
    (project.planFiles disk found packagePath groups).result = .error fault →
      fault.isNullCharacter = false := by
  induction groups with
  | nil => simp [planFiles]
  | cons group rest induction =>
      intro failed
      rw [planFiles] at failed
      rcases Attempt.result_andThen_eq_error_iff.mp failed with first | ⟨_, _, later⟩
      · exact isNullCharacter_of_planFile first
      · rcases Attempt.result_andThen_eq_error_iff.mp later with others | ⟨_, _, impossible⟩
        · exact induction others
        · simp at impossible

theorem isNullCharacter_of_planContracts {directory : Text} {contracts : List Contract}
    {fault : PlanFault}
    (failed : (project.planContracts disk found directory contracts).result = .error fault) :
    fault.isNullCharacter = false := by
  unfold planContracts at failed
  dsimp only at failed
  split at failed
  · rw [← Except.error.inj failed]
    rfl
  · rcases Attempt.result_andThen_eq_error_iff.mp failed with scanned | ⟨_, _, later⟩
    · obtain ⟨before, _, rfl⟩ := Attempt.result_mapFault_eq_error_iff.mp scanned
      rfl
    · rcases Attempt.result_andThen_eq_error_iff.mp later with files | ⟨_, _, impossible⟩
      · exact isNullCharacter_of_planFiles _ files
      · simp at impossible

/-- A package at the end of a way, with no character zero in any name on the way
from the root to its files. -/
structure CanBeRead (project : Project) (way : Location) (package : Package) : Prop where
  placed : project.PackageAt way package
  root : Disk.holdsNull project.settings.root = false
  above : (Package.relativeSteps project.settings.root project.settings.apiDirectory).any
    Disk.holdsNull = false
  below : way.any Disk.holdsNull = false
  files : ∀ name ∈ package.fileNames, Disk.holdsNull name = false

theorem IsSurveyed.exists_canBeRead {packages : List Package}
    (surveyed : project.IsSurveyed disk packages) (free : disk.IsNullFree) :
    ∀ package ∈ packages, ∃ way, project.CanBeRead way package := by
  intro package member
  have names : ∀ item ∈ disk.entries, ∀ name ∈ item.1,
      (IsComponent name ∧ name ≠ Path.up) ∧ Disk.holdsNull name = false := by
    intro item listed name inside
    refine ⟨surveyed.fileSystem.names item listed name inside, ?_⟩
    exact Bool.not_eq_true _ ▸ List.any_eq_false.mp (free item listed) name inside
  obtain ⟨way, named, place, files⟩ :=
    Package.exists_way_of_crawl names surveyed.crawled package member
  obtain ⟨_, steps⟩ := Package.root_is_directory_of_crawl surveyed.valid.up_not_mem_root
    surveyed.crawled (List.ne_nil_of_mem member)
  obtain ⟨_, present, _, _⟩ := Package.crawl_eq_ok_iff.mp surveyed.crawled
  have clean := (Disk.at?_eq_directory_iff.mp present).1
  rw [Disk.holdsNull_eq_any_components, steps, List.any_append, Bool.or_eq_false_iff,
    ← Disk.holdsNull_eq_any_components] at clean
  refine ⟨way, ⟨⟨?_, place, ?_⟩, clean.1, clean.2, ?_, ?_⟩⟩
  · exact fun name inside => (named name inside).1
  · exact fun name inside => (files name inside).1
  · rw [List.any_eq_false]
    exact fun name inside => by simp [(named name inside).2]
  · exact fun name inside => (files name inside).2

namespace CanBeRead

variable {way : Location} {package : Package}

theorem holdsNull_fullPath (readable : project.CanBeRead way package) (path : Text) :
    Disk.holdsNull (project.fullPath path) = Disk.holdsNull path := by
  rw [fullPath, Disk.holdsNull_within, readable.root, Bool.and_false, Bool.or_false]

theorem isNullCharacter_of_planPackage (readable : project.CanBeRead way package)
    {fault : PlanFault}
    (failed : (project.planPackage disk found package.directory package.fileNames).result =
      .error fault) :
    fault.isNullCharacter = false := by
  unfold planPackage at failed
  split at failed
  · rename_i packageFault undeclared
    rw [← Except.error.inj failed]
    apply Contract.isNullCharacter_of_ofPackage package.fileNames _ undeclared
    intro name listed
    obtain ⟨parts, _⟩ := readable.placed.components
    obtain ⟨inside, _⟩ := Path.components_join_name (readable.placed.files name listed).1
      readable.placed.directory_ne_nil
    have path := readable.holdsNull_fullPath (Path.join package.directory name)
    rw [fullPath] at path
    rw [path, Disk.holdsNull_eq_any_components, inside, parts]
    simp [readable.above, readable.below, readable.files name listed]
  · simp at failed
  · rcases Attempt.result_andThen_eq_error_iff.mp failed with planned | ⟨_, _, impossible⟩
    · exact isNullCharacter_of_planContracts planned
    · simp at impossible

/-- An implementation package holds the character zero if the implementation
directory does. -/
theorem holdsNull_packagePath (readable : project.CanBeRead way package)
    (valid : project.IsValid) {packagePath : Text}
    (transplanted : Path.transplant project.settings.apiDirectory
      project.settings.implementationDirectory package.directory = .ok packagePath) :
    Disk.holdsNull packagePath = Disk.holdsNull project.settings.implementationDirectory := by
  obtain ⟨parts, _⟩ := valid.components_transplant readable.placed transplanted
  rw [Disk.holdsNull_eq_any_components, parts, List.any_append, readable.below, Bool.or_false,
    ← Disk.holdsNull_eq_any_components]

end CanBeRead

/-! ## States of a run -/

/-- A disk as a run finds and leaves it: all names are proper ones. -/
structure IsIntact (disk : Disk) : Prop where
  names : ∀ item ∈ disk.entries, Disk.IsProper item.1
  free : disk.IsNullFree

theorem IsIntact.store {stored : Disk} {path text : Text} (intact : IsIntact disk)
    (result : project.store disk path text = .ok stored) : IsIntact stored := by
  refine ⟨(builds_of_store result).isProper intact.names, ?_⟩
  obtain ⟨prepared, made, written⟩ := store_eq_ok_iff.mp result
  exact (intact.free.makeDirectories made).write written

/-- The components of a planned file: those of the implementation directory, the
way to the package, and a name. -/
theorem CanBeRead.exists_components_of_isPlanFor {way : Location} {package : Package}
    (readable : project.CanBeRead way package) (valid : project.IsValid)
    (intact : IsIntact disk) {contracts : List Contract} {plan : Plan}
    (declared : Contract.ofPackage disk project.settings.root package.directory
      package.fileNames = .ok contracts)
    (planned : project.IsPlanFor disk found package.directory contracts plan) :
    ∀ merged ∈ plan.files, ∃ name, Disk.holdsNull name = false ∧
      Path.components (project.fullPath merged.path) =
        Path.components (project.fullPath project.settings.implementationDirectory) ++
          (way ++ [name]) := by
  have listed {file : Text × Bytes} (member : file ∈ Implementation.sourceFiles disk
      (Path.within project.settings.root plan.packagePath)) :
      ∃ item ∈ disk.entries, file.1 ∈ item.1 := by
    obtain ⟨location, _, inside⟩ := Implementation.mem_filesIn_of_mem_sourceFiles member
    exact ⟨_, Disk.mem_filesIn inside, by simp⟩
  have proper := proper_of_isPlanFor declared planned fun file member => by
    obtain ⟨item, known, inside⟩ := listed member
    exact intact.names item known _ inside
  have clean : ∀ name ∈ plan.implementations.map Implementation.fileName,
      Disk.holdsNull name = false := by
    refine forall_fileName_of_isPlanFor planned (fun file member => ?_) (fun contract member => ?_)
    · obtain ⟨item, known, inside⟩ := listed member
      exact Bool.not_eq_true _ ▸ List.any_eq_false.mp (intact.free item known) _ inside
    · exact Contract.holdsNull_defaultFileName
        (Contract.continuesName_of_ofPackage declared contract member)
  intro merged member
  have path : merged.path ∈ plan.files.map Merged.path := List.mem_map_of_mem member
  rw [path_of_isPlanFor planned] at path
  obtain ⟨name, known, same⟩ := List.mem_map.mp path
  have known := Sorting.mem_distinct.mp known
  refine ⟨name, clean name known, ?_⟩
  obtain ⟨parts, kind, _⟩ := valid.components_transplant readable.placed planned.placed
  obtain ⟨inside, sameKind⟩ := Path.components_join_name (proper name known).1
    (Path.ne_nil_of_transplant planned.placed)
  rw [← same]
  apply Path.components_within_append (sameKind.trans kind)
  rw [inside, parts, List.append_assoc]

/-- The paths that are written for a package hold the character zero if the
implementation directory does. -/
theorem CanBeRead.holdsNull_of_isPlanFor {way : Location} {package : Package}
    (readable : project.CanBeRead way package) (valid : project.IsValid)
    (intact : IsIntact disk) {contracts : List Contract} {plan : Plan}
    (declared : Contract.ofPackage disk project.settings.root package.directory
      package.fileNames = .ok contracts)
    (planned : project.IsPlanFor disk found package.directory contracts plan) :
    ∀ merged ∈ plan.files,
      Disk.holdsNull (project.fullPath merged.path) =
          Disk.holdsNull project.settings.implementationDirectory ∧
        Disk.holdsNull (Path.parent (project.fullPath merged.path)) =
          Disk.holdsNull project.settings.implementationDirectory := by
  intro merged member
  obtain ⟨name, clean, parts⟩ :=
    readable.exists_components_of_isPlanFor valid intact declared planned merged member
  have base := readable.holdsNull_fullPath project.settings.implementationDirectory
  rw [Disk.holdsNull_eq_any_components] at base
  constructor
  · rw [Disk.holdsNull_eq_any_components, parts]
    simp [base, readable.below, clean]
  · rw [← List.append_assoc] at parts
    rw [Disk.holdsNull_parent_eq_of_components parts]
    simp [base, readable.below]

/-! ## Writing -/

theorem store_eq_nullCharacter_iff {path text : Text} :
    project.store disk path text = .error .nullCharacter ↔
      Disk.holdsNull (Path.parent (project.fullPath path)) = true ∨
        Disk.holdsNull (project.fullPath path) = true ∧
          ∃ prepared,
            disk.makeDirectories (Path.parent (project.fullPath path)) = .ok prepared := by
  rw [← @Disk.makeDirectories_eq_nullCharacter_iff disk]
  unfold store
  dsimp only
  cases made : disk.makeDirectories (Path.parent (project.fullPath path)) with
  | error fault => simp
  | ok prepared => simp [Disk.write_eq_nullCharacter_iff]

/-- Writing a file fails in a documented way, or because of the character zero
in its path. -/
theorem isDocumented_of_write {progress next : Progress} {merged : Merged} {fault : RunFault}
    (written : project.write progress merged = (next, .error fault)) :
    fault.isDocumented = true ∨
      fault = .nullCharacter ∧ project.settings.isDryRun = false ∧
        project.store progress.disk merged.path merged.text = .error .nullCharacter := by
  unfold write at written
  dsimp only at written
  split at written
  · simp at written
  · split at written
    · simp at written
    · rename_i real
      split at written
      · rename_i access failed
        obtain ⟨_, same⟩ := Prod.mk.inj written
        rw [← Except.error.inj same]
        cases access with
        | failed => exact .inl rfl
        | nullCharacter => exact .inr ⟨rfl, by simpa using real, failed⟩
      · simp at written

theorem write_eq_nullCharacter {progress : Progress} {merged : Merged}
    (real : project.settings.isDryRun = false) (changed : merged.isChanged = true)
    (failed : project.store progress.disk merged.path merged.text = .error .nullCharacter) :
    project.write progress merged = (progress, .error .nullCharacter) := by
  simp [write, real, changed, failed, RunFault.ofAccess]

theorem IsIntact.write {progress next : Progress} {merged : Merged}
    {result : Except RunFault Outcome} (intact : IsIntact progress.disk)
    (written : project.write progress merged = (next, result)) : IsIntact next.disk := by
  cases dry : project.settings.isDryRun with
  | true =>
      have same := disk_of_write dry progress merged
      rw [written] at same
      exact same ▸ intact
  | false =>
      rcases write_cases dry written with ⟨_, same, _⟩ | ⟨_, _, stored⟩ | ⟨_, same, _⟩
      · exact same ▸ intact
      · exact intact.store stored
      · exact same ▸ intact

/-- Files can be written without trouble from the character zero, or are not
written at all. -/
def CanWrite (project : Project) (merged : Merged) : Prop :=
  project.settings.isDryRun = false →
    Disk.holdsNull (project.fullPath merged.path) = false ∧
      Disk.holdsNull (Path.parent (project.fullPath merged.path)) = false

theorem isDocumented_of_writeFiles (files : List Merged) :
    ∀ {progress next result}, (∀ merged ∈ files, project.CanWrite merged) →
      IsIntact progress.disk → project.writeFiles progress files = (next, result) →
        IsIntact next.disk ∧ ∀ fault, result = .error fault → fault.isDocumented = true := by
  induction files with
  | nil =>
      intro progress next result _ intact written
      rw [writeFiles, Prod.mk.injEq] at written
      rw [← written.1, ← written.2]
      exact ⟨intact, by simp⟩
  | cons merged rest induction =>
      intro progress next result possible intact written
      rw [writeFiles] at written
      split at written
      · rename_i middle fault failed
        rw [Prod.mk.injEq] at written
        rw [← written.1, ← written.2]
        refine ⟨intact.write failed, ?_⟩
        intro other same
        rw [← Except.error.inj same]
        rcases isDocumented_of_write failed with documented | ⟨_, real, null⟩
        · exact documented
        · obtain ⟨whole, parent⟩ := possible merged List.mem_cons_self real
          rw [store_eq_nullCharacter_iff, whole, parent] at null
          simp at null
      · rename_i middle outcome first
        have step : IsIntact middle.disk := intact.write first
        refine induction ?_ ?_ written
        · exact fun other member => possible other (List.mem_cons_of_mem _ member)
        · exact step

end Project

end Scaffold
