import Scaffold.Proofs.Project.Plan

/-!
# Successful runs step by step

Each step of a run that succeeds is a relation between the progress before it
and the progress after it.  The relations follow the functions: writing a file,
writing the files of a package, generating a package, and generating packages.
-/

namespace Scaffold

namespace Project

variable (project : Project) (found : Except ModuleFault Module)

/-- Writing a merged file leads from one progress to another. -/
inductive Writes (progress : Progress) (merged : Merged) : Progress → Prop where
  | unchanged (same : merged.isChanged = false) : Writes progress merged progress
  | announced (changed : merged.isChanged = true) (dry : project.settings.isDryRun = true) :
      Writes progress merged (progress.inform merged.intention)
  | stored {disk} (changed : merged.isChanged = true) (real : project.settings.isDryRun = false)
      (stored : project.store progress.disk merged.path merged.text = .ok disk) :
      Writes progress merged ({ progress with disk := disk }.inform merged.achievement)

/-- Writing merged files one after the other. -/
inductive WritesAll : Progress → List Merged → Progress → Prop where
  | nil {progress} : WritesAll progress [] progress
  | cons {progress merged middle rest next} (first : project.Writes progress merged middle)
      (later : WritesAll { middle with files := middle.files ++ [merged.outcome] } rest next) :
      WritesAll progress (merged :: rest) next

/-- The progress with the implementations of a plan. -/
def adopt (progress : Progress) (plan : Plan) : Progress :=
  { progress with
    packages := progress.packages + 1
    implementations := progress.implementations ++ plan.implementations }

/-- Planning a package and writing its files. -/
inductive Generates (progress : Progress) (package : Package) : Progress → Prop where
  | without
      (planned : (project.planPackage progress.disk found package.directory
        package.fileNames).result = .ok none) :
      Generates progress package
        (progress.report (project.planPackage progress.disk found package.directory
          package.fileNames).happenings)
  | implemented {plan next}
      (planned : (project.planPackage progress.disk found package.directory
        package.fileNames).result = .ok (some plan))
      (written : project.WritesAll
        (adopt (progress.report (project.planPackage progress.disk found package.directory
          package.fileNames).happenings) plan) plan.files next) :
      Generates progress package next

/-- Handling packages one after the other. -/
inductive GeneratesAll : Progress → List Package → Progress → Prop where
  | nil {progress} : GeneratesAll progress [] progress
  | cons {progress package middle rest next}
      (first : project.Generates found progress package middle)
      (later : GeneratesAll middle rest next) :
      GeneratesAll progress (package :: rest) next

/-- Writing the registry. -/
inductive Registers (progress : Progress) : Progress → Option Outcome → Prop where
  | nothing (empty : progress.implementations = []) : Registers progress progress none
  | written {merged next} (something : progress.implementations ≠ [])
      (planned : (project.planRegistry progress.disk found progress.implementations).result =
        .ok merged)
      (written : project.Writes
        (progress.report (project.planRegistry progress.disk found
          progress.implementations).happenings) merged next) :
      Registers progress next (some merged.outcome)

variable {project found}

theorem write_eq_ok_iff {progress next : Progress} {merged : Merged} {outcome : Outcome} :
    project.write progress merged = (next, .ok outcome) ↔
      outcome = merged.outcome ∧ project.Writes progress merged next := by
  unfold write
  constructor
  · intro written
    cases changed : merged.isChanged with
    | false =>
        simp only [changed, Bool.not_false, if_true, Prod.mk.injEq, Except.ok.injEq] at written
        obtain ⟨rfl, rfl⟩ := written
        exact ⟨rfl, .unchanged changed⟩
    | true =>
        simp only [changed, Bool.not_true, Bool.false_eq_true, if_false] at written
        cases dry : project.settings.isDryRun with
        | true =>
            simp only [dry, if_true, Prod.mk.injEq, Except.ok.injEq] at written
            obtain ⟨rfl, rfl⟩ := written
            exact ⟨rfl, .announced changed dry⟩
        | false =>
            simp only [dry, Bool.false_eq_true, if_false] at written
            split at written
            · simp at written
            · rename_i disk stored
              simp only [Prod.mk.injEq, Except.ok.injEq] at written
              obtain ⟨rfl, rfl⟩ := written
              exact ⟨rfl, .stored changed dry stored⟩
  · rintro ⟨rfl, written⟩
    cases written with
    | unchanged same => simp [same]
    | announced changed dry => simp [changed, dry]
    | stored changed real stored => simp [changed, real, stored]

theorem writeFiles_eq_ok_iff {files : List Merged} {next : Progress} :
    ∀ {progress}, project.writeFiles progress files = (next, .ok ()) ↔
      project.WritesAll progress files next := by
  induction files with
  | nil =>
      intro progress
      rw [writeFiles]
      constructor
      · intro written
        simp only [Prod.mk.injEq, and_true] at written
        subst written
        exact .nil
      · intro written
        cases written
        rfl
  | cons merged rest induction =>
      intro progress
      rw [writeFiles]
      constructor
      · intro written
        split at written
        · simp at written
        · rename_i middle outcome first
          obtain ⟨rfl, step⟩ := write_eq_ok_iff.mp first
          exact .cons step (induction.mp written)
      · intro written
        cases written with
        | cons step later =>
            rw [write_eq_ok_iff.mpr ⟨rfl, step⟩]
            exact induction.mpr later

theorem generatePackage_eq_ok_iff {progress next : Progress} {package : Package} :
    project.generatePackage found progress package = (next, .ok ()) ↔
      project.Generates found progress package next := by
  unfold generatePackage
  dsimp only
  constructor
  · intro generated
    split at generated
    · simp at generated
    · rename_i planned
      simp only [Prod.mk.injEq, and_true] at generated
      subst generated
      exact .without planned
    · rename_i plan planned
      exact .implemented planned (writeFiles_eq_ok_iff.mp generated)
  · intro generated
    cases generated with
    | without planned => simp only [planned]
    | implemented planned written =>
        simp only [planned]
        exact writeFiles_eq_ok_iff.mpr written

theorem generatePackages_eq_ok_iff {packages : List Package} {next : Progress} :
    ∀ {progress}, project.generatePackages found progress packages = (next, .ok ()) ↔
      project.GeneratesAll found progress packages next := by
  induction packages with
  | nil =>
      intro progress
      rw [generatePackages]
      constructor
      · intro generated
        simp only [Prod.mk.injEq, and_true] at generated
        subst generated
        exact .nil
      · intro generated
        cases generated
        rfl
  | cons package rest induction =>
      intro progress
      rw [generatePackages]
      constructor
      · intro generated
        split at generated
        · simp at generated
        · rename_i middle first
          exact .cons (generatePackage_eq_ok_iff.mp first) (induction.mp generated)
      · intro generated
        cases generated with
        | cons step later =>
            rw [generatePackage_eq_ok_iff.mpr step]
            exact induction.mpr later

theorem generateRegistry_eq_ok_iff {progress next : Progress} {outcome? : Option Outcome} :
    project.generateRegistry found progress = (next, .ok outcome?) ↔
      project.Registers found progress next outcome? := by
  unfold generateRegistry
  constructor
  · intro registered
    split at registered
    · rename_i none
      simp only [Prod.mk.injEq, Except.ok.injEq] at registered
      obtain ⟨rfl, rfl⟩ := registered
      exact .nothing (List.isEmpty_iff.mp none)
    · rename_i some
      have something : progress.implementations ≠ [] := by
        simpa [List.isEmpty_iff] using some
      dsimp only at registered
      split at registered
      · simp at registered
      · rename_i merged planned
        split at registered
        · simp at registered
        · rename_i last outcome written
          simp only [Prod.mk.injEq, Except.ok.injEq] at registered
          obtain ⟨rfl, rfl⟩ := registered
          obtain ⟨rfl, step⟩ := write_eq_ok_iff.mp written
          exact .written something planned step
  · intro registered
    cases registered with
    | nothing empty => simp [empty]
    | written something planned step =>
        rw [if_neg (by simpa [List.isEmpty_iff] using something)]
        simp only [planned]
        rw [write_eq_ok_iff.mpr ⟨rfl, step⟩]

/-- The report of a run that ended with some progress. -/
def reportOf (project : Project) (final : Progress) (outcome? : Option Outcome) : Report where
  files := final.files
  registry? := outcome?
  packages := final.packages
  contracts := final.implementations.length
  isDryRun := project.settings.isDryRun

/-- A run succeeds exactly if its packages are found, all of them are generated,
and the registry is written. -/
theorem run_eq_ok_iff {disk : Disk} {final : Progress} {report : Report} :
    project.run disk = (final, .ok report) ↔
      ∃ packages middle outcome?,
        Package.crawl disk project.settings.root project.settings.apiDirectory = .ok packages ∧
          project.GeneratesAll (Module.find disk project.current project.settings.root)
            { disk := disk } packages middle ∧
          project.Registers (Module.find disk project.current project.settings.root) middle
            final outcome? ∧
          report = project.reportOf final outcome? := by
  unfold run
  dsimp only
  constructor
  · intro ran
    split at ran
    · simp at ran
    · rename_i packages crawled
      split at ran
      · simp at ran
      · rename_i middle generated
        split at ran
        · simp at ran
        · rename_i last outcome? registered
          simp only [Prod.mk.injEq, Except.ok.injEq] at ran
          obtain ⟨rfl, rfl⟩ := ran
          exact ⟨packages, middle, outcome?, crawled, generatePackages_eq_ok_iff.mp generated,
            generateRegistry_eq_ok_iff.mp registered, rfl⟩
  · rintro ⟨packages, middle, outcome?, crawled, generated, registered, rfl⟩
    simp only [crawled]
    rw [generatePackages_eq_ok_iff.mpr generated]
    simp only
    rw [generateRegistry_eq_ok_iff.mpr registered]
    rfl

end Project

end Scaffold
