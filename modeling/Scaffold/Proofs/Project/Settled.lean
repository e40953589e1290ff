import Scaffold.Proofs.Go.Layout
import Scaffold.Proofs.Merge.Imports
import Scaffold.Proofs.Project.Run

/-!
# Settled projects

A project is settled if everything that a run would generate is in place: every
contract shows its backing type and all of its methods in files that can be cut,
and the registry is current.  With no formatter a run on a settled project
changes nothing, and a run that changes nothing was made on a settled project.
-/

namespace Scaffold

namespace Outcome

/-- Nothing became of the file, and nothing in it is new. -/
def IsUnchanged (outcome : Outcome) : Prop :=
  outcome.status = .unchanged ∧ outcome.newTypes = 0 ∧ outcome.newMethods = 0

end Outcome

namespace Merged

theorem status_eq_unchanged_iff (merged : Merged) :
    merged.status = .unchanged ↔ merged.isChanged = false := by
  unfold status
  cases merged.isChanged <;> cases merged.isCreated <;> simp

end Merged

namespace Project

variable (project : Project)

/-- The file at a path is there and can be cut around its imports. -/
def CanBeCut (disk : Disk) (path : Text) : Prop :=
  ∃ content layout, disk.fileAt? (project.fullPath path) = some content ∧
    Go.FileLayout.ofSource content = .ok layout

/-- A contract has its backing type, all of its methods, and a file that can be
cut. -/
def IsShown (disk : Disk) (packagePath : Text) (facts : PackageFacts) (contract : Contract) :
    Prop :=
  ∃ fileName, facts.fileOf? contract.backingName = some fileName ∧
    (∀ method ∈ contract.methods,
      method.name ∈ itemsUnder contract.backingName facts.methods) ∧
    project.CanBeCut disk (Path.join packagePath fileName)

/-- A package has nothing to implement, or all of its implementations are in
place. -/
inductive IsInPlace (disk : Disk) (package : Package) : List Implementation → Prop where
  | without
      (declared : Contract.ofPackage disk project.settings.root package.directory
        package.fileNames = .ok []) :
      IsInPlace disk package []
  | implemented {contracts packagePath facts}
      (declared : Contract.ofPackage disk project.settings.root package.directory
        package.fileNames = .ok contracts)
      (something : contracts ≠ [])
      (placed : Path.transplant project.settings.apiDirectory
        project.settings.implementationDirectory package.directory = .ok packagePath)
      (scanned : project.HasFacts disk packagePath facts)
      (shown : ∀ contract ∈ contracts, project.IsShown disk packagePath facts contract) :
      IsInPlace disk package (implementationsOf packagePath facts contracts)

/-- The registry reads as it would be rendered. -/
def RegistryIsCurrent (disk : Disk) (module : Module) (implementations : List Implementation) :
    Prop :=
  (Registry.visited project.settings.implementationDirectory implementations).any
      Disk.holdsNull = false ∧
    ∃ rendered,
      Registry.render ⟨project.settings.root, module⟩ project.current
          project.settings.implementationDirectory none implementations = .ok rendered ∧
        project.registryText? disk project.settings.registryPath = .ok (some rendered)

variable {project}

/-! ## Files -/

theorem result_format (plain : project.formatter = .none) (path text : Text) :
    (project.format path text).result = .ok text := by
  simp [format, plain, Formatter.format]

theorem isMergedFile_iff (plain : project.formatter = .none)
    {disk : Disk} {module : Module} {path : Text} {implementations : List Implementation}
    {merged : Merged} :
    project.IsMergedFile disk module path implementations merged ↔
      ∃ layout previous?,
        Merge.read (disk.fileAt? (project.fullPath path)) implementations =
            .ok (layout, previous?) ∧
          merged = Merge.complete ⟨project.settings.root, module⟩ path layout previous?
            implementations := by
  unfold IsMergedFile
  simp only [result_format plain, Except.ok.injEq]
  constructor
  · rintro ⟨layout, previous?, _, read, rfl, rfl⟩
    exact ⟨layout, previous?, read, rfl⟩
  · rintro ⟨layout, previous?, read, rfl⟩
    exact ⟨layout, previous?, _, read, rfl, rfl⟩

/-- Complete implementations leave a file that can be cut as it is. -/
theorem exists_unchanged_file (plain : project.formatter = .none)
    {disk : Disk} (module : Module) {path : Text} {implementations : List Implementation}
    (cut : project.CanBeCut disk path)
    (complete : ∀ implementation ∈ implementations, Merge.IsComplete implementation) :
    ∃ merged, project.IsMergedFile disk module path implementations merged ∧
      merged.isChanged = false ∧ merged.newTypes = 0 ∧ merged.newMethods = 0 := by
  obtain ⟨content, layout, present, accepted⟩ := cut
  obtain ⟨file, known, _⟩ := Go.FileLayout.exists_file_of_ofSource accepted
  have read : Merge.read (disk.fileAt? (project.fullPath path)) implementations =
      .ok (layout, some file.source) := by
    simp only [present, Merge.read, accepted, (Go.SourceFile.text_of_ofBytes known).1]
    rfl
  refine ⟨_, (isMergedFile_iff plain).mpr ⟨layout, some file.source, read, rfl⟩, ?_⟩
  rw [Merge.complete_of_complete complete]
  exact ⟨by simp [Merged.isChanged], rfl, rfl⟩

theorem canBeCut_of_unchanged (plain : project.formatter = .none)
    {disk : Disk} {module : Module} {path : Text} {implementations : List Implementation}
    {merged : Merged} (planned : project.IsMergedFile disk module path implementations merged)
    (unchanged : merged.isChanged = false) : project.CanBeCut disk path := by
  obtain ⟨layout, previous?, read, rfl⟩ := (isMergedFile_iff plain).mp planned
  unfold CanBeCut
  cases present : disk.fileAt? (project.fullPath path) with
  | none =>
      simp only [present, Merge.read, Except.ok.injEq, Prod.mk.injEq] at read
      simp [Merged.isChanged, Merge.complete, ← read.2] at unchanged
  | some content =>
      cases accepted : Go.FileLayout.ofSource content with
      | error fault => simp [present, Merge.read, accepted] at read
      | ok layout => exact ⟨content, layout, rfl, accepted⟩

/-! ## Implementations of a package -/

theorem isComplete_implementation_iff
    {facts : PackageFacts} {packageName packagePath : Text} {contract : Contract} :
    Merge.IsComplete (facts.implementation packageName packagePath contract) ↔
      (facts.fileOf? contract.backingName).isSome = true ∧
        ∀ method ∈ contract.methods,
          method.name ∈ itemsUnder contract.backingName facts.methods := by
  unfold PackageFacts.implementation Merge.IsComplete
  cases facts.fileOf? contract.backingName <;> simp

theorem fileName_implementation
    {facts : PackageFacts} {packageName packagePath fileName : Text} {contract : Contract}
    (declared : facts.fileOf? contract.backingName = some fileName) :
    (facts.implementation packageName packagePath contract).fileName = fileName := by
  simp [PackageFacts.implementation, declared]

/-- What is shown of all contracts makes their implementations complete. -/
theorem isComplete_of_isShown
    {disk : Disk} {packagePath : Text} {facts : PackageFacts} {contracts : List Contract}
    (shown : ∀ contract ∈ contracts, project.IsShown disk packagePath facts contract) :
    ∀ implementation ∈ implementationsOf packagePath facts contracts,
      Merge.IsComplete implementation := by
  intro implementation member
  obtain ⟨contract, known, rfl⟩ := List.mem_map.mp member
  obtain ⟨fileName, declared, written, _⟩ := shown contract known
  exact isComplete_implementation_iff.mpr ⟨by simp [declared], written⟩

private theorem exists_forall₂ {α β : Type} {relation : α → β → Prop} {good : β → Prop}
    (items : List α) (each : ∀ item ∈ items, ∃ value, relation item value ∧ good value) :
    ∃ values, List.Forall₂ relation items values ∧ ∀ value ∈ values, good value := by
  induction items with
  | nil => exact ⟨[], .nil, fun _ member => absurd member List.not_mem_nil⟩
  | cons item rest induction =>
      obtain ⟨value, related, known⟩ := each item List.mem_cons_self
      obtain ⟨values, all, goods⟩ :=
        induction fun other member => each other (List.mem_cons_of_mem item member)
      exact ⟨value :: values, .cons related all, List.forall_mem_cons.mpr ⟨known, goods⟩⟩

/-- What is in place is planned without any change. -/
theorem exists_unchanged_files (plain : project.formatter = .none)
    {disk : Disk} (module : Module) {packagePath : Text} {facts : PackageFacts}
    {contracts : List Contract}
    (shown : ∀ contract ∈ contracts, project.IsShown disk packagePath facts contract) :
    ∃ files, List.Forall₂
        (fun group merged =>
          (project.planFile disk (.ok module) (Path.join packagePath group.1) group.2).result =
            .ok merged)
        (Implementation.groupByFile (implementationsOf packagePath facts contracts)) files ∧
      ∀ merged ∈ files,
        merged.isChanged = false ∧ merged.newTypes = 0 ∧ merged.newMethods = 0 := by
  apply exists_forall₂
  intro group listed
  obtain ⟨named, members⟩ := mem_groupByFile.mp listed
  have complete : ∀ implementation ∈ group.2, Merge.IsComplete implementation := by
    intro implementation member
    rw [members] at member
    exact isComplete_of_isShown shown implementation (List.mem_filter.mp member).1
  have cut : project.CanBeCut disk (Path.join packagePath group.1) := by
    obtain ⟨implementation, member, same⟩ := List.mem_map.mp named
    obtain ⟨contract, known, rfl⟩ := List.mem_map.mp member
    obtain ⟨fileName, declared, _, cut⟩ := shown contract known
    rw [fileName_implementation declared] at same
    rwa [← same]
  obtain ⟨merged, planned, unchanged⟩ :=
    exists_unchanged_file plain module cut complete
  exact ⟨merged, result_planFile_eq_ok_iff.mpr ⟨module, rfl, planned⟩, unchanged⟩

/-- Where all planned files stay as they are, all contracts are shown. -/
theorem isShown_of_unchanged (plain : project.formatter = .none)
    {disk : Disk} {found : Except ModuleFault Module} {packagePath : Text} {facts : PackageFacts}
    {contracts : List Contract} {files : List Merged}
    (planned : List.Forall₂
      (fun group merged =>
        (project.planFile disk found (Path.join packagePath group.1) group.2).result = .ok merged)
      (Implementation.groupByFile (implementationsOf packagePath facts contracts)) files)
    (unchanged : ∀ merged ∈ files, merged.isChanged = false)
    (complete : ∀ implementation ∈ implementationsOf packagePath facts contracts,
      Merge.IsComplete implementation) :
    ∀ contract ∈ contracts, project.IsShown disk packagePath facts contract := by
  intro contract known
  have member := List.mem_map_of_mem
    (f := facts.implementation (facts.package?.getD (implementationPackageName
      ((contracts.head?.map Contract.packageName).getD []))) packagePath) known
  obtain ⟨present, written⟩ := isComplete_implementation_iff.mp (complete _ member)
  obtain ⟨fileName, declared⟩ := Option.isSome_iff_exists.mp present
  refine ⟨fileName, declared, written, ?_⟩
  have listed : (fileName, (implementationsOf packagePath facts contracts).filter
        fun implementation => implementation.fileName == fileName) ∈
      Implementation.groupByFile (implementationsOf packagePath facts contracts) := by
    rw [mem_groupByFile]
    refine ⟨?_, rfl⟩
    rw [← fileName_implementation declared]
    exact List.mem_map_of_mem member
  obtain ⟨merged, generated, result⟩ := exists_related_right planned _ listed
  obtain ⟨module, _, isMerged⟩ := result_planFile_eq_ok_iff.mp result
  exact canBeCut_of_unchanged plain isMerged (unchanged merged generated)

/-! ## Packages -/

theorem writesAll_of_unchanged {files : List Merged} :
    ∀ {progress : Progress}, (∀ merged ∈ files, merged.isChanged = false) →
      project.WritesAll progress files
        { progress with files := progress.files ++ files.map Merged.outcome } := by
  induction files with
  | nil =>
      intro progress _
      have nothing : project.WritesAll progress [] progress := .nil
      simpa using nothing
  | cons merged rest induction =>
      intro progress unchanged
      have later := @induction { progress with files := progress.files ++ [merged.outcome] }
        fun other member => unchanged other (List.mem_cons_of_mem merged member)
      rw [List.append_assoc] at later
      exact .cons (.unchanged (unchanged merged List.mem_cons_self)) later

theorem Writes.progress_eq {progress next : Progress} {merged : Merged}
    (written : project.Writes progress merged next) :
    next.files = progress.files ∧ next.implementations = progress.implementations ∧
      (merged.isChanged = false → next.disk = progress.disk) := by
  cases written with
  | unchanged same => exact ⟨rfl, rfl, fun _ => rfl⟩
  | announced changed dry => exact ⟨rfl, rfl, fun _ => rfl⟩
  | stored changed real stored =>
      exact ⟨rfl, rfl, fun unchanged => absurd (changed.symm.trans unchanged) (by simp)⟩

/-- Writing files only adds their outcomes; whatever else the progress holds is
the same, and so is the disk if no file changed. -/
theorem WritesAll.progress_eq {progress next : Progress} {files : List Merged}
    (written : project.WritesAll progress files next) :
    next.files = progress.files ++ files.map Merged.outcome ∧
      next.implementations = progress.implementations ∧
      ((∀ merged ∈ files, merged.isChanged = false) → next.disk = progress.disk) := by
  induction written with
  | nil => exact ⟨by simp, rfl, fun _ => rfl⟩
  | @cons progress merged middle rest next first later induction =>
      obtain ⟨files, implementations, disk⟩ := induction
      obtain ⟨firstFiles, firstImplementations, firstDisk⟩ := first.progress_eq
      refine ⟨?_, implementations.trans firstImplementations, ?_⟩
      · rw [files, firstFiles, List.map_cons, List.append_assoc]
        rfl
      · intro unchanged
        have fixed := disk fun other member =>
          unchanged other (List.mem_cons_of_mem merged member)
        exact fixed.trans (firstDisk (unchanged merged List.mem_cons_self))

/-- A package that is in place is generated without a change. -/
theorem exists_generates_of_isInPlace (plain : project.formatter = .none)
    {found : Except ModuleFault Module} {progress : Progress} {package : Package}
    {implementations : List Implementation}
    (known : implementations ≠ [] → ∃ module, found = .ok module)
    (inPlace : project.IsInPlace progress.disk package implementations) :
    ∃ next outcomes, project.Generates found progress package next ∧
      next.disk = progress.disk ∧ next.files = progress.files ++ outcomes ∧
      (∀ outcome ∈ outcomes, outcome.IsUnchanged) ∧
      next.implementations = progress.implementations ++ implementations := by
  cases inPlace with
  | without declared =>
      have planned : (project.planPackage progress.disk found package.directory
          package.fileNames).result = .ok none :=
        result_planPackage_eq_ok_iff.mpr ⟨[], declared, .inl ⟨rfl, rfl⟩⟩
      exact ⟨_, [], .without planned, rfl, by simp [Progress.report],
        fun _ member => absurd member List.not_mem_nil, by simp [Progress.report]⟩
  | @implemented contracts packagePath facts declared something placed scanned shown =>
      have nonempty : implementationsOf packagePath facts contracts ≠ [] := by
        simpa [implementationsOf] using something
      obtain ⟨module, rfl⟩ := known nonempty
      obtain ⟨files, merged, unchanged⟩ :=
        exists_unchanged_files plain module shown
      have isPlan : project.IsPlanFor progress.disk (.ok module) package.directory contracts
          ⟨packagePath, implementationsOf packagePath facts contracts, files⟩ :=
        ⟨placed, ⟨facts, scanned, rfl⟩, merged⟩
      have planned := result_planPackage_eq_ok_iff.mpr
        ⟨contracts, declared, .inr ⟨something, _, rfl, isPlan⟩⟩
      refine ⟨_, files.map Merged.outcome, .implemented planned
        (writesAll_of_unchanged fun merged member => (unchanged merged member).1), rfl, rfl,
        ?_, rfl⟩
      intro outcome member
      obtain ⟨merged, listed, rfl⟩ := List.mem_map.mp member
      obtain ⟨same, noType, noMethod⟩ := unchanged merged listed
      exact ⟨merged.status_eq_unchanged_iff.mpr same, noType, noMethod⟩

/-- A package that is generated without a change is in place. -/
theorem isInPlace_of_generates (plain : project.formatter = .none)
    {found : Except ModuleFault Module} {progress next : Progress} {package : Package}
    (generated : project.Generates found progress package next)
    (unchanged : ∀ outcome ∈ next.files, outcome.status = .unchanged)
    (complete : ∀ implementation ∈ next.implementations, Merge.IsComplete implementation) :
    ∃ implementations, project.IsInPlace progress.disk package implementations ∧
      next.disk = progress.disk ∧
      next.implementations = progress.implementations ++ implementations := by
  cases generated with
  | without planned =>
      obtain ⟨contracts, declared, ⟨rfl, _⟩ | ⟨_, plan, impossible, _⟩⟩ :=
        result_planPackage_eq_ok_iff.mp planned
      · exact ⟨[], .without declared, rfl, by simp [Progress.report]⟩
      · exact absurd impossible (by simp)
  | @implemented plan _ planned written =>
      obtain ⟨contracts, declared, ⟨_, impossible⟩ | ⟨something, _, same, isPlan⟩⟩ :=
        result_planPackage_eq_ok_iff.mp planned
      · exact absurd impossible (by simp)
      · rw [← Option.some.inj same] at isPlan
        obtain ⟨placed, ⟨facts, scanned, listed⟩, merged⟩ := isPlan
        obtain ⟨files, implementations, disk⟩ := written.progress_eq
        have fixed : ∀ merged ∈ plan.files, merged.isChanged = false := by
          intro merged member
          rw [← merged.status_eq_unchanged_iff]
          apply unchanged merged.outcome
          rw [files]
          exact List.mem_append_right _ (List.mem_map_of_mem member)
        rw [listed] at merged
        have whole : ∀ implementation ∈
            implementationsOf plan.packagePath facts contracts,
            Merge.IsComplete implementation := by
          intro implementation member
          apply complete implementation
          rw [implementations]
          exact List.mem_append_right _ (listed ▸ member)
        have shown := isShown_of_unchanged plain merged fixed whole
        refine ⟨plan.implementations, ?_, disk fixed, implementations⟩
        rw [listed]
        exact .implemented declared something placed scanned shown

theorem isComplete_of_isInPlace {disk : Disk} {packages : List Package}
    {parts : List (List Implementation)}
    (inPlace : List.Forall₂ (project.IsInPlace disk) packages parts) :
    ∀ implementation ∈ parts.flatten, Merge.IsComplete implementation := by
  induction inPlace with
  | nil => exact fun _ member => absurd member List.not_mem_nil
  | @cons package part packages parts first _ induction =>
      intro implementation member
      rcases List.mem_append.mp (List.flatten_cons ▸ member) with now | later
      · cases first with
        | without _ => exact absurd now List.not_mem_nil
        | implemented _ _ _ _ shown => exact isComplete_of_isShown shown implementation now
      · exact induction implementation later

theorem Generates.grows
    {found : Except ModuleFault Module} {progress next : Progress} {package : Package}
    (generated : project.Generates found progress package next) :
    progress.files <+: next.files ∧ progress.implementations <+: next.implementations := by
  cases generated with
  | without planned => exact ⟨List.prefix_rfl, List.prefix_rfl⟩
  | implemented planned written =>
      obtain ⟨files, implementations, _⟩ := written.progress_eq
      rw [files, implementations]
      exact ⟨List.prefix_append _ _, List.prefix_append _ _⟩

theorem GeneratesAll.grows
    {found : Except ModuleFault Module} {progress next : Progress} {packages : List Package}
    (generated : project.GeneratesAll found progress packages next) :
    progress.files <+: next.files ∧ progress.implementations <+: next.implementations := by
  induction generated with
  | nil => exact ⟨List.prefix_rfl, List.prefix_rfl⟩
  | cons first later induction =>
      exact ⟨first.grows.1.trans induction.1, first.grows.2.trans induction.2⟩

theorem exists_generatesAll_of_isInPlace (plain : project.formatter = .none)
    {found : Except ModuleFault Module} {disk : Disk} {packages : List Package}
    {parts : List (List Implementation)}
    (inPlace : List.Forall₂ (project.IsInPlace disk) packages parts) :
    ∀ {progress : Progress}, progress.disk = disk →
      (parts.flatten ≠ [] → ∃ module, found = .ok module) →
      ∃ next outcomes, project.GeneratesAll found progress packages next ∧
        next.disk = disk ∧ next.files = progress.files ++ outcomes ∧
        (∀ outcome ∈ outcomes, outcome.IsUnchanged) ∧
        next.implementations = progress.implementations ++ parts.flatten := by
  induction inPlace with
  | nil =>
      intro progress same _
      exact ⟨progress, [], .nil, same, by simp, fun _ member => absurd member List.not_mem_nil,
        by simp⟩
  | @cons package part packages parts first _ induction =>
      rintro progress rfl known
      obtain ⟨middle, outcomes, step, disk, files, unchanged, implementations⟩ :=
        exists_generates_of_isInPlace plain
          (fun something => known fun empty => something (List.flatten_eq_nil_iff.mp empty part
            List.mem_cons_self)) first
      obtain ⟨next, others, steps, lastDisk, lastFiles, lastUnchanged, lastImplementations⟩ :=
        induction disk fun something => known fun empty => something
          (List.flatten_eq_nil_iff.mpr fun other member =>
            List.flatten_eq_nil_iff.mp empty other (List.mem_cons_of_mem part member))
      refine ⟨next, outcomes ++ others, .cons step steps, lastDisk, ?_, ?_, ?_⟩
      · rw [lastFiles, files, List.append_assoc]
      · intro outcome member
        rcases List.mem_append.mp member with now | later
        · exact unchanged outcome now
        · exact lastUnchanged outcome later
      · rw [lastImplementations, implementations, List.append_assoc, List.flatten_cons]

theorem isInPlace_of_generatesAll (plain : project.formatter = .none)
    {found : Except ModuleFault Module} {progress next : Progress} {packages : List Package}
    (generated : project.GeneratesAll found progress packages next)
    (unchanged : ∀ outcome ∈ next.files, outcome.status = .unchanged)
    (complete : ∀ implementation ∈ next.implementations, Merge.IsComplete implementation) :
    ∃ parts, List.Forall₂ (project.IsInPlace progress.disk) packages parts ∧
      next.disk = progress.disk ∧
      next.implementations = progress.implementations ++ parts.flatten := by
  induction generated with
  | nil => exact ⟨[], .nil, rfl, by simp⟩
  | @cons progress package middle rest next first later induction =>
      obtain ⟨parts, others, disk, implementations⟩ := induction unchanged complete
      obtain ⟨part, inPlace, fixed, more⟩ := isInPlace_of_generates plain first
        (fun outcome member => unchanged outcome (later.grows.1.subset member))
        (fun implementation member => complete implementation (later.grows.2.subset member))
      rw [fixed] at others disk
      refine ⟨part :: parts, .cons inPlace others, disk, ?_⟩
      rw [implementations, more, List.append_assoc, List.flatten_cons]

end Project

end Scaffold
