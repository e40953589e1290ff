import Mathlib.Data.List.Forall2
import Scaffold.Project.Run
import Scaffold.Proofs.Attempt
import Scaffold.Proofs.Sorting

/-!
# What a plan holds

A plan exists exactly if each of its stages has a result: the contracts of the
package, the way to the implementation package, what that package shows, and one
merged file for each group of implementations.  What happens on the way is left
aside here.
-/

namespace Scaffold

namespace Attempt

variable {Fault Other Result : Type}

@[simp] theorem result_ofFormatting (formatting : Formatting) :
    (ofFormatting formatting).result = formatting.result := rfl

theorem result_mapFault_eq_ok_iff
    {attempt : Attempt Fault Result} {change : Fault → Other} {value : Result} :
    (attempt.mapFault change).result = .ok value ↔ attempt.result = .ok value := by
  unfold mapFault
  cases attempt.result <;> simp [Except.mapError]

end Attempt

namespace Project

/-- A file of an implementation package as it is merged and formatted. -/
def IsMergedFile (project : Project) (disk : Disk) (module : Module) (path : Text)
    (implementations : List Implementation) (merged : Merged) : Prop :=
  ∃ layout previous? text,
    Merge.read (disk.fileAt? (project.fullPath path)) implementations =
        .ok (layout, previous?) ∧
      (project.format path
        (Merge.complete ⟨project.settings.root, module⟩ path layout previous?
          implementations).text).result = .ok text ∧
      merged =
        { Merge.complete ⟨project.settings.root, module⟩ path layout previous?
            implementations with text := text }

variable {project : Project} {disk : Disk} {found : Except ModuleFault Module}

theorem result_planFile_eq_ok_iff
    {path : Text} {implementations : List Implementation} {merged : Merged} :
    (project.planFile disk found path implementations).result = .ok merged ↔
      ∃ module, found = .ok module ∧
        project.IsMergedFile disk module path implementations merged := by
  unfold planFile IsMergedFile
  cases Merge.read (disk.fileAt? (project.fullPath path)) implementations with
  | error fault => simp
  | ok answer =>
      cases found with
      | error fault => simp
      | ok module =>
          simp only [Attempt.result_andThen_eq_ok_iff, Attempt.result_mapFault_eq_ok_iff,
            Attempt.result_ofFormatting, Attempt.result_succeed, Except.ok.injEq]
          constructor
          · rintro ⟨text, formatted, rfl⟩
            exact ⟨module, rfl, answer.1, answer.2, text, rfl, formatted, rfl⟩
          · rintro ⟨_, rfl, _, _, text, rfl, formatted, rfl⟩
            exact ⟨text, formatted, rfl⟩

theorem result_planFiles_eq_ok_iff
    {packagePath : Text} {groups : List (Text × List Implementation)} :
    ∀ {files}, (project.planFiles disk found packagePath groups).result = .ok files ↔
      List.Forall₂
        (fun group merged =>
          (project.planFile disk found (Path.join packagePath group.1) group.2).result =
            .ok merged)
        groups files := by
  induction groups with
  | nil =>
      intro files
      rw [planFiles, Attempt.result_succeed, Except.ok.injEq, List.forall₂_nil_left_iff]
      exact eq_comm
  | cons group rest induction =>
      intro files
      rw [planFiles, Attempt.result_andThen_eq_ok_iff, List.forall₂_cons_left_iff]
      constructor
      · rintro ⟨merged, planned, later⟩
        obtain ⟨others, following, last⟩ := Attempt.result_andThen_eq_ok_iff.mp later
        exact ⟨merged, others, planned, induction.mp following, (Except.ok.inj last).symm⟩
      · rintro ⟨merged, others, planned, following, rfl⟩
        exact ⟨merged, planned,
          Attempt.result_andThen_eq_ok_iff.mpr ⟨others, induction.mpr following, rfl⟩⟩

/-! ## Files of a package -/

/-- A group of implementations holds those of one file. -/
theorem mem_groupByFile {implementations : List Implementation}
    {group : Text × List Implementation} :
    group ∈ Implementation.groupByFile implementations ↔
      group.1 ∈ implementations.map Implementation.fileName ∧
        group.2 = implementations.filter fun implementation =>
          implementation.fileName == group.1 := by
  obtain ⟨fileName, members⟩ := group
  simp only [Implementation.groupByFile, List.mem_map, Sorting.mem_distinct, Prod.mk.injEq]
  constructor
  · rintro ⟨_, listed, rfl, rfl⟩
    exact ⟨listed, rfl⟩
  · rintro ⟨listed, rfl⟩
    exact ⟨fileName, listed, rfl, rfl⟩

theorem exists_related_right {α β : Type} {relation : α → β → Prop}
    {items : List α} {values : List β} (all : List.Forall₂ relation items values) :
    ∀ item ∈ items, ∃ value ∈ values, relation item value := by
  induction all with
  | nil => exact fun _ member => absurd member List.not_mem_nil
  | @cons head value rest others related _ induction =>
      intro item member
      rcases List.mem_cons.mp member with rfl | later
      · exact ⟨value, List.mem_cons_self, related⟩
      · obtain ⟨other, known, holds⟩ := induction item later
        exact ⟨other, List.mem_cons_of_mem value known, holds⟩

theorem exists_related_left {α β : Type} {relation : α → β → Prop}
    {items : List α} {values : List β} (all : List.Forall₂ relation items values) :
    ∀ value ∈ values, ∃ item ∈ items, relation item value := by
  have reversed : List.Forall₂ (flip relation) values items := List.Forall₂.flip all
  exact exists_related_right reversed

/-- The implementations of contracts, as the files of a package show them. -/
def implementationsOf (packagePath : Text) (facts : PackageFacts) (contracts : List Contract) :
    List Implementation :=
  contracts.map
    (facts.implementation
      (facts.package?.getD
        (implementationPackageName ((contracts.head?.map Contract.packageName).getD [])))
      packagePath)

/-- What the source files of an implementation package show together. -/
def HasFacts (project : Project) (disk : Disk) (packagePath : Text) (facts : PackageFacts) :
    Prop :=
  (PackageFacts.collect packagePath {}
    (Implementation.sourceFiles disk (Path.within project.settings.root packagePath))).result =
      .ok facts

theorem result_scan_eq_ok_iff
    {packagePath : Text} {contracts : List Contract} (something : contracts ≠ [])
    {implementations : List Implementation} :
    (Implementation.scan disk project.settings.root packagePath contracts).result =
        .ok implementations ↔
      ∃ facts, project.HasFacts disk packagePath facts ∧
        implementations = implementationsOf packagePath facts contracts := by
  cases contracts with
  | nil => exact absurd rfl something
  | cons first rest =>
      rw [Implementation.scan, Attempt.result_andThen_eq_ok_iff]
      constructor
      · rintro ⟨facts, collected, answered⟩
        exact ⟨facts, collected, (Except.ok.inj answered).symm⟩
      · rintro ⟨facts, collected, rfl⟩
        exact ⟨facts, collected, rfl⟩

/-- A plan for contracts, stage by stage. -/
structure IsPlanFor (project : Project) (disk : Disk) (found : Except ModuleFault Module)
    (directory : Text) (contracts : List Contract) (plan : Plan) : Prop where
  placed : Path.transplant project.settings.apiDirectory
    project.settings.implementationDirectory directory = .ok plan.packagePath
  scanned : ∃ facts, project.HasFacts disk plan.packagePath facts ∧
    plan.implementations = implementationsOf plan.packagePath facts contracts
  merged : List.Forall₂
    (fun group merged =>
      (project.planFile disk found (Path.join plan.packagePath group.1) group.2).result =
        .ok merged)
    (Implementation.groupByFile plan.implementations) plan.files

theorem result_planContracts_eq_ok_iff
    {directory : Text} {contracts : List Contract} (something : contracts ≠ []) {plan : Plan} :
    (project.planContracts disk found directory contracts).result = .ok plan ↔
      project.IsPlanFor disk found directory contracts plan := by
  unfold planContracts
  dsimp only
  cases placed : Path.transplant project.settings.apiDirectory
      project.settings.implementationDirectory directory with
  | error fault =>
      constructor
      · intro answered
        exact absurd answered (by simp)
      · intro planned
        have contradiction := placed.symm.trans planned.placed
        exact absurd contradiction (by simp)
  | ok packagePath =>
      simp only [Attempt.result_andThen_eq_ok_iff, Attempt.result_mapFault_eq_ok_iff,
        result_planFiles_eq_ok_iff, Attempt.result_succeed, result_scan_eq_ok_iff something]
      constructor
      · rintro ⟨implementations, scanned, files, merged, answered⟩
        have same : plan = ⟨packagePath, implementations, files⟩ :=
          (Except.ok.inj answered).symm
        subst same
        exact ⟨placed, scanned, merged⟩
      · intro planned
        have same : packagePath = plan.packagePath :=
          Except.ok.inj (placed.symm.trans planned.placed)
        subst same
        exact ⟨plan.implementations, planned.scanned, plan.files, planned.merged, rfl⟩

/-- A package has no plan exactly if it has no contracts, and otherwise the plan
for its contracts. -/
theorem result_planPackage_eq_ok_iff
    {directory : Text} {fileNames : List Text} {plan? : Option Plan} :
    (project.planPackage disk found directory fileNames).result = .ok plan? ↔
      ∃ contracts,
        Contract.ofPackage disk project.settings.root directory fileNames = .ok contracts ∧
          (contracts = [] ∧ plan? = none ∨
            contracts ≠ [] ∧ ∃ plan, plan? = some plan ∧
              project.IsPlanFor disk found directory contracts plan) := by
  unfold planPackage
  cases declared : Contract.ofPackage disk project.settings.root directory fileNames with
  | error fault => simp
  | ok contracts =>
      cases contracts with
      | nil => simp [eq_comm]
      | cons first rest =>
          have something : first :: rest ≠ [] := List.cons_ne_nil first rest
          simp only [Attempt.result_andThen_eq_ok_iff, Attempt.result_succeed,
            result_planContracts_eq_ok_iff something]
          constructor
          · rintro ⟨plan, planned, answered⟩
            exact ⟨first :: rest, rfl, .inr ⟨something, plan,
              (Except.ok.inj answered).symm, planned⟩⟩
          · rintro ⟨contracts, same, ⟨rfl, _⟩ | ⟨_, plan, rfl, planned⟩⟩
            · exact absurd same (by simp)
            · rw [← Except.ok.inj same] at planned
              exact ⟨plan, planned, rfl⟩

/-! ## The registry -/

/-- The registry as it is rendered, formatted and compared with what was there. -/
def IsMergedRegistry (project : Project) (disk : Disk) (module : Module)
    (implementations : List Implementation) (merged : Merged) : Prop :=
  (Registry.visited project.settings.implementationDirectory implementations).any
      Disk.holdsNull = false ∧
    ∃ rendered text previous?,
      Registry.render ⟨project.settings.root, module⟩ project.current
          project.settings.implementationDirectory none implementations = .ok rendered ∧
        (project.format project.settings.registryPath rendered).result = .ok text ∧
        project.registryText? disk project.settings.registryPath = .ok previous? ∧
        merged = ⟨project.settings.registryPath, text, previous?, 0, 0⟩

theorem result_planRegistry_eq_ok_iff {implementations : List Implementation}
    {merged : Merged} :
    (project.planRegistry disk found implementations).result = .ok merged ↔
      ∃ module, found = .ok module ∧
        project.IsMergedRegistry disk module implementations merged := by
  unfold planRegistry IsMergedRegistry
  dsimp only
  cases found with
  | error fault => simp
  | ok module =>
      cases holds : (Registry.visited project.settings.implementationDirectory
          implementations).any Disk.holdsNull with
      | true => simp
      | false =>
          cases rendered : Registry.render ⟨project.settings.root, module⟩ project.current
              project.settings.implementationDirectory none implementations with
          | error fault => simp [rendered]
          | ok plain =>
              simp only [rendered, Bool.false_eq_true, if_false,
                Attempt.result_andThen_eq_ok_iff, Attempt.result_mapFault_eq_ok_iff,
                Attempt.result_ofFormatting, Except.ok.injEq, exists_eq_left', true_and]
              cases read : project.registryText? disk project.settings.registryPath with
              | error fault => simp
              | ok previous? => simp [eq_comm]

end Project

end Scaffold
