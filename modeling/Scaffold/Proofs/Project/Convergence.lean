import Scaffold.Proofs.Project.Settled

/-!
# Runs that find everything in place

A run changes nothing exactly if the project is settled: its packages are found,
every contract of theirs is shown, and the registry is current.
-/

namespace Scaffold

namespace Project

variable {project : Project}

/-! ## The registry -/

theorem isMergedRegistry_iff (plain : project.formatter = .none)
    {disk : Disk} {module : Module} {implementations : List Implementation} {merged : Merged} :
    project.IsMergedRegistry disk module implementations merged ↔
      (Registry.visited project.settings.implementationDirectory implementations).any
          Disk.holdsNull = false ∧
        ∃ rendered previous?,
          Registry.render ⟨project.settings.root, module⟩ project.current
              project.settings.implementationDirectory none implementations = .ok rendered ∧
            project.registryText? disk project.settings.registryPath = .ok previous? ∧
            merged = ⟨project.settings.registryPath, rendered, previous?, 0, 0⟩ := by
  simp only [IsMergedRegistry, result_format plain, Except.ok.injEq]
  refine and_congr_right fun _ => ?_
  constructor
  · rintro ⟨rendered, _, previous?, written, rfl, read, rfl⟩
    exact ⟨rendered, previous?, written, read, rfl⟩
  · rintro ⟨rendered, previous?, written, read, rfl⟩
    exact ⟨rendered, _, previous?, written, rfl, read, rfl⟩

theorem registryText?_eq_some_iff {disk : Disk} {path text : Text} :
    project.registryText? disk path = .ok (some text) ↔
      ∃ content decoded, disk.fileAt? (project.fullPath path) = some content ∧
        Utf8.decode content = .ok decoded ∧ Text.universalNewlines decoded = text := by
  unfold registryText?
  cases disk.fileAt? (project.fullPath path) with
  | none => simp
  | some content =>
      cases known : Utf8.decode content with
      | error fault => simp [known]
      | ok decoded => simp [known]

/-! ## Runs -/

/-- A run succeeds, leaves the disk as it is, reports every file as unchanged
and finds every contract implemented. -/
def Converges (project : Project) (disk : Disk) : Prop :=
  ∃ final report, project.run disk = (final, .ok report) ∧ final.disk = disk ∧
    (∀ outcome ∈ report.files ++ report.registry?.toList, outcome.IsUnchanged) ∧
    ∀ implementation ∈ final.implementations, Merge.IsComplete implementation

instance (outcome : Outcome) : Decidable outcome.IsUnchanged :=
  inferInstanceAs (Decidable (_ ∧ _))

instance (implementation : Implementation) : Decidable (Merge.IsComplete implementation) :=
  inferInstanceAs (Decidable (_ ∧ _))

instance (disk : Disk) : Decidable (project.Converges disk) :=
  match ran : project.run disk with
  | (_, .error _) => .isFalse fun ⟨_, _, again, _⟩ => by
      rw [ran] at again
      exact absurd (Prod.mk.inj again).2 (by simp)
  | (final, .ok report) =>
      decidable_of_iff
        (final.disk = disk ∧
          (∀ outcome ∈ report.files ++ report.registry?.toList, outcome.IsUnchanged) ∧
          ∀ implementation ∈ final.implementations, Merge.IsComplete implementation)
        ⟨fun holds => ⟨final, report, ran, holds⟩, fun ⟨last, other, again, holds⟩ => by
          obtain ⟨same, reported⟩ := Prod.mk.inj (ran.symm.trans again)
          rw [same, Except.ok.inj reported]
          exact holds⟩

/-- Everything that a run would generate is in place. -/
def IsSettled (project : Project) (disk : Disk) : Prop :=
  ∃ packages parts,
    Package.crawl disk project.settings.root project.settings.apiDirectory = .ok packages ∧
      List.Forall₂ (project.IsInPlace disk) packages parts ∧
      (parts.flatten = [] ∨ ∃ module,
        Module.find disk project.current project.settings.root = .ok module ∧
          project.RegistryIsCurrent disk module parts.flatten)

/-- A run on a settled project changes nothing. -/
theorem converges_of_isSettled (plain : project.formatter = .none) {disk : Disk}
    (settled : project.IsSettled disk) : project.Converges disk := by
  obtain ⟨packages, parts, crawled, inPlace, current⟩ := settled
  have known : parts.flatten ≠ [] → ∃ module,
      Module.find disk project.current project.settings.root = .ok module := by
    intro something
    obtain ⟨module, found, _⟩ := current.resolve_left something
    exact ⟨module, found⟩
  have start : ({ disk := disk } : Progress).disk = disk := rfl
  obtain ⟨middle, outcomes, generated, fixed, files, unchanged, implementations⟩ :=
    exists_generatesAll_of_isInPlace plain inPlace start known
  rw [List.nil_append] at files implementations
  have complete : ∀ implementation ∈ middle.implementations, Merge.IsComplete implementation := by
    rw [implementations]
    exact isComplete_of_isInPlace inPlace
  by_cases nothing : parts.flatten = []
  · have registered : project.Registers
        (Module.find disk project.current project.settings.root) middle middle none :=
      .nothing (implementations.trans nothing)
    refine ⟨middle, _, run_eq_ok_iff.mpr
      ⟨packages, middle, none, crawled, generated, registered, rfl⟩, fixed, ?_, complete⟩
    simpa [reportOf, files] using unchanged
  · obtain ⟨module, found, noNull, rendered, written, previous⟩ :=
      current.resolve_left nothing
    have isMerged := (isMergedRegistry_iff plain).mpr
      ⟨noNull, rendered, some rendered, written, previous, rfl⟩
    have planned := result_planRegistry_eq_ok_iff.mpr ⟨module, found, isMerged⟩
    rw [← fixed, ← implementations] at planned
    have unchangedRegistry : (⟨project.settings.registryPath, rendered, some rendered, 0, 0⟩ :
        Merged).isChanged = false := by
      simp [Merged.isChanged]
    have registered := Registers.written
      (fun empty => nothing (implementations.symm.trans empty)) planned
      (.unchanged unchangedRegistry)
    rw [fixed] at registered
    refine ⟨_, _, run_eq_ok_iff.mpr
      ⟨packages, middle, _, crawled, generated, registered, rfl⟩, fixed, ?_, complete⟩
    intro outcome member
    rcases List.mem_append.mp member with file | registry
    · exact unchanged outcome (by simpa [reportOf, Progress.report, files] using file)
    · have last : outcome = Merged.outcome ⟨project.settings.registryPath, rendered,
          some rendered, 0, 0⟩ := by
        simpa [reportOf] using registry
      rw [last]
      exact ⟨(Merged.status_eq_unchanged_iff _).mpr unchangedRegistry, rfl, rfl⟩

/-- A run that changes nothing was made on a settled project. -/
theorem isSettled_of_converges (plain : project.formatter = .none) {disk : Disk}
    (converges : project.Converges disk) : project.IsSettled disk := by
  obtain ⟨final, report, ran, fixed, unchanged, complete⟩ := converges
  obtain ⟨packages, middle, outcome?, crawled, generated, registered, rfl⟩ :=
    run_eq_ok_iff.mp ran
  have files : final.files = middle.files ∧
      final.implementations = middle.implementations := by
    cases registered with
    | nothing empty => exact ⟨rfl, rfl⟩
    | written something planned written =>
        exact ⟨written.progress_eq.1, written.progress_eq.2.1⟩
  rw [files.2] at complete
  have noneChanged : ∀ outcome ∈ middle.files, outcome.status = .unchanged := by
    intro outcome member
    rw [← files.1] at member
    exact (unchanged outcome (List.mem_append_left _ member)).1
  have registryUnchanged : ∀ outcome, outcome? = some outcome → outcome.status = .unchanged := by
    rintro outcome rfl
    exact (unchanged outcome (List.mem_append_right _ List.mem_cons_self)).1
  obtain ⟨parts, inPlace, same, implementations⟩ :=
    isInPlace_of_generatesAll plain generated noneChanged complete
  replace same : middle.disk = disk := same
  replace implementations : middle.implementations = parts.flatten := implementations
  refine ⟨packages, parts, crawled, inPlace, ?_⟩
  cases registered with
  | nothing empty => exact .inl (implementations.symm.trans empty)
  | @written merged _ something planned written =>
      obtain ⟨module, found, isMerged⟩ := result_planRegistry_eq_ok_iff.mp planned
      obtain ⟨noNull, rendered, previous?, result, read, rfl⟩ :=
        (isMergedRegistry_iff plain).mp isMerged
      have asBefore := (Merged.status_eq_unchanged_iff _).mp (registryUnchanged _ rfl)
      rw [Merged.isChanged, bne_eq_false_iff_eq] at asBefore
      have previous : previous? = some rendered := asBefore
      rw [previous, same] at read
      rw [implementations] at noNull result
      exact .inr ⟨module, found, noNull, rendered, result, read⟩

/-- A run changes nothing exactly if everything is in place. -/
theorem converges_iff_isSettled (plain : project.formatter = .none) {disk : Disk} :
    project.Converges disk ↔ project.IsSettled disk :=
  ⟨isSettled_of_converges plain, converges_of_isSettled plain⟩

end Project

end Scaffold
