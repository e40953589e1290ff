import Scaffold.Proofs.Project.Convergence
import Scaffold.Proofs.Project.Growth
import Scaffold.Proofs.Text.Encoding
import Scaffold.Proofs.Text.Lines
import Scaffold.Settings.Validation

/-!
# Running again

A run is made once more on the disk that a successful run left.  The packages
are found again, the module is the same, and the registry reads as it was
rendered.  Whether the second run changes nothing then depends on what the
implementation packages show.
-/

namespace Scaffold

namespace Project

variable {project : Project} {disk : Disk} {progress : Progress} {report : Report}

/-! ## What the first run leaves -/

/-- After a real run the registry reads as it was rendered, up to the ends of
its lines. -/
theorem registryText?_of_registers (plain : project.formatter = .none)
    (real : project.settings.isDryRun = false)
    (valid : Text.endsWith Go.sourceSuffix project.settings.registryName = true)
    {found : Except ModuleFault Module} {final : Progress} {outcome? : Option Outcome}
    (registered : project.Registers found progress final outcome?)
    (tree : progress.disk.IsTree) (something : progress.implementations ≠ []) :
    ∃ module rendered, found = .ok module ∧
      Registry.render ⟨project.settings.root, module⟩ project.current
          project.settings.implementationDirectory none progress.implementations =
        .ok rendered ∧
      project.registryText? final.disk project.settings.registryPath =
        .ok (some (Text.universalNewlines rendered)) := by
  cases registered with
  | nothing empty => exact absurd empty something
  | written _ planned written =>
      obtain ⟨module, known, isMerged⟩ := result_planRegistry_eq_ok_iff.mp planned
      obtain ⟨_, rendered, previous?, result, read, rfl⟩ := (isMergedRegistry_iff plain).mp isMerged
      refine ⟨module, rendered, known, result, ?_⟩
      cases written with
      | announced changed dry => exact absurd (dry.symm.trans real) (by simp)
      | unchanged same =>
          rw [Merged.isChanged, bne_eq_false_iff_eq] at same
          replace same : previous? = some rendered := same
          rw [same] at read
          obtain ⟨_, _, _, _, rfl⟩ := registryText?_eq_some_iff.mp read
          rw [Text.universalNewlines_universalNewlines]
          exact read
      | stored changed _ stored =>
          have source := Path.endsWith_join valid project.settings.implementationDirectory
          have present := fileAt?_of_store tree source stored
          exact registryText?_eq_some_iff.mpr
            ⟨_, _, present, Utf8.decode_encode rendered, rfl⟩

theorem Generates.eq_of_nothing {found : Except ModuleFault Module} {next : Progress}
    {package : Package} (generated : project.Generates found progress package next)
    (nothing : next.implementations = []) :
    next.disk = progress.disk ∧ next.files = progress.files := by
  cases generated with
  | without planned => exact ⟨rfl, rfl⟩
  | @implemented plan _ planned written =>
      obtain ⟨contracts, _, ⟨_, impossible⟩ | ⟨something, _, same, isPlan⟩⟩ :=
        result_planPackage_eq_ok_iff.mp planned
      · exact absurd impossible (by simp)
      · rw [← Option.some.inj same] at isPlan
        obtain ⟨facts, _, listed⟩ := isPlan.scanned
        have empty := (List.append_eq_nil_iff.mp (written.progress_eq.2.1.symm.trans nothing)).2
        rw [listed, implementationsOf, List.map_eq_nil_iff] at empty
        exact absurd empty something

theorem GeneratesAll.eq_of_nothing {found : Except ModuleFault Module} {next : Progress}
    {packages : List Package} (generated : project.GeneratesAll found progress packages next)
    (nothing : next.implementations = []) :
    next.disk = progress.disk ∧ next.files = progress.files := by
  induction generated with
  | nil => exact ⟨rfl, rfl⟩
  | cons first later induction =>
      obtain ⟨disk, files⟩ := induction nothing
      have none := List.prefix_nil.mp (nothing ▸ later.grows.2)
      obtain ⟨firstDisk, firstFiles⟩ := first.eq_of_nothing none
      exact ⟨disk.trans firstDisk, files.trans firstFiles⟩

/-! ## The second run -/

/-- Implementations have the registry that others have, as it is read. -/
def RegistersAlike (project : Project) (module : Module)
    (before after : List Implementation) : Prop :=
  (Registry.visited project.settings.implementationDirectory after).any Disk.holdsNull = false ∧
    ∃ rendered,
      Registry.render ⟨project.settings.root, module⟩ project.current
          project.settings.implementationDirectory none before = .ok rendered ∧
        Registry.render ⟨project.settings.root, module⟩ project.current
          project.settings.implementationDirectory none after =
        .ok (Text.universalNewlines rendered)

/-- Everything that a run on a disk implemented is in place afterwards, and would
be registered as it was. -/
def ReadsBack (project : Project) (disk : Disk) (progress : Progress)
    (packages : List Package) : Prop :=
  ∃ parts, List.Forall₂ (project.IsInPlace progress.disk) packages parts ∧
    (parts.flatten = [] ∨ ∃ module,
      Module.find disk project.current project.settings.root = .ok module ∧
        project.RegistersAlike module progress.implementations parts.flatten)

/-- A registry that reads as it was rendered is current for the implementations
that would be registered alike. -/
theorem registryIsCurrent_iff {module : Module} {before after : List Implementation}
    {rendered : Text}
    (written : Registry.render ⟨project.settings.root, module⟩ project.current
      project.settings.implementationDirectory none before = .ok rendered)
    (read : project.registryText? disk project.settings.registryPath =
      .ok (some (Text.universalNewlines rendered))) :
    project.RegistryIsCurrent disk module after ↔
      project.RegistersAlike module before after := by
  refine and_congr_right fun _ => ?_
  constructor
  · rintro ⟨text, result, same⟩
    rw [read] at same
    rw [← Option.some.inj (Except.ok.inj same)] at result
    exact ⟨rendered, written, result⟩
  · rintro ⟨text, same, result⟩
    rw [written] at same
    rw [← Except.ok.inj same] at result
    exact ⟨_, result, read⟩

theorem isSettled_of_nothing (plain : project.formatter = .none) {packages : List Package}
    (generated : project.GeneratesAll
      (Module.find disk project.current project.settings.root) { disk := disk } packages progress)
    (nothing : progress.implementations = []) :
    progress.disk = disk ∧ ∃ parts, List.Forall₂ (project.IsInPlace disk) packages parts ∧
      parts.flatten = [] := by
  obtain ⟨same, files⟩ := generated.eq_of_nothing nothing
  obtain ⟨parts, inPlace, _, implementations⟩ := isInPlace_of_generatesAll plain generated
    (by rw [files]; exact fun _ member => absurd member List.not_mem_nil)
    (by rw [nothing]; exact fun _ member => absurd member List.not_mem_nil)
  exact ⟨same, parts, inPlace, implementations.symm.trans nothing⟩

/-- On the disk that a successful run left, a second run finds the packages, and
it changes nothing exactly if all that was implemented reads back. -/
theorem converges_iff_of_run (plain : project.formatter = .none)
    (real : project.settings.isDryRun = false)
    (valid : Settings.isRegistryName (.text project.settings.registryName) = true)
    (tree : disk.IsTree) (ran : project.run disk = (progress, .ok report)) :
    ∃ packages,
      Package.crawl progress.disk project.settings.root project.settings.apiDirectory =
          .ok packages ∧
        (project.Converges progress.disk ↔ project.ReadsBack disk progress packages) := by
  obtain ⟨source, _⟩ := Bool.and_eq_true_iff.mp valid
  obtain ⟨packages, middle, outcome?, crawled, generated, registered, _⟩ := run_eq_ok_iff.mp ran
  by_cases nothing : middle.implementations = []
  · obtain ⟨same, parts, inPlace, empty⟩ := isSettled_of_nothing plain generated nothing
    have last : progress = middle := by
      cases registered with
      | nothing _ => rfl
      | written something _ _ => exact absurd nothing something
    subst last
    rw [same]
    refine ⟨packages, crawled, iff_of_true ?_ ⟨parts, same.symm ▸ inPlace, .inl empty⟩⟩
    exact converges_of_isSettled plain ⟨packages, parts, crawled, inPlace, .inl empty⟩
  · have grown := growsTo_of_run ran tree source
    have some : packages ≠ [] := by
      rintro rfl
      cases generated
      exact nothing rfl
    obtain ⟨again, crawledAgain⟩ := Package.exists_crawl_of_growsTo grown some crawled
    have stays := Module.find_eq_of_growsTo tree grown project.current project.settings.root
    obtain ⟨module, rendered, known, written, read⟩ := registryText?_of_registers plain real source
      registered (generated.growsTo tree).tree nothing
    have implementations : progress.implementations = middle.implementations := by
      cases registered with
      | nothing empty => exact absurd empty nothing
      | written _ _ written => exact written.progress_eq.2.1
    have current (other : Module) (parts : List (List Implementation)) :
        Module.find progress.disk project.current project.settings.root = .ok other ∧
            project.RegistryIsCurrent progress.disk other parts.flatten ↔
          Module.find disk project.current project.settings.root = .ok other ∧
            project.RegistersAlike other progress.implementations parts.flatten := by
      rw [stays, known, implementations]
      refine and_congr_right fun same => ?_
      rw [← Except.ok.inj same]
      exact registryIsCurrent_iff written read
    refine ⟨again, crawledAgain, ?_⟩
    rw [converges_iff_isSettled plain, IsSettled, ReadsBack]
    simp only [current]
    constructor
    · rintro ⟨packages, parts, result, inPlace, registered⟩
      rw [crawledAgain] at result
      rw [← Except.ok.inj result] at inPlace
      exact ⟨parts, inPlace, registered⟩
    · rintro ⟨parts, inPlace, registered⟩
      exact ⟨again, parts, crawledAgain, inPlace, registered⟩

/-! ## Two small projects -/

/-- A project without a formatter. -/
def plainProject : Project where
  settings := ⟨"/p", "api", "i", "r.go", false⟩
  current := "/p"
  toolbox := { executable? := fun _ => none, run := fun _ _ => .failed [] }
  formatter := .none

/-- A disk with one contract, whose backing type has no methods yet. -/
def smallDisk (contract : Text) : Disk where
  entries :=
    [(["p"], .directory), (["p", "go.mod"], .file (Utf8.encode "module m\n")),
      (["p", "api"], .directory), (["p", "api", "a.go"], .file (Utf8.encode contract)),
      (["p", "i"], .directory),
      (["p", "i", "a_impl.go"], .file (Utf8.encode "package i\ntype aRepositoryImpl int\n"))]

theorem isTree_smallDisk (contract : Text) : (smallDisk contract).IsTree := by
  apply Disk.isTree_of_entries
  simp [smallDisk, Disk.entry?, Disk.find?]

/-- A method without parameters. -/
def methodDisk : Disk :=
  smallDisk "package a\ntype ARepository interface\x7bA()\x7d\n"

/-- A method that takes an interface with a method. -/
def literalDisk : Disk :=
  smallDisk "package a\ntype ARepository interface\x7bA(interface\x7bB()\x7d)\x7d\n"

theorem exists_report (project : Project) (disk : Disk)
    (succeeded : (project.run disk).2.isOk = true) :
    ∃ report, project.run disk = ((project.run disk).1, .ok report) := by
  cases result : (project.run disk).2 with
  | error fault => simp [result, Except.isOk, Except.toBool] at succeeded
  | ok report => exact ⟨report, by rw [← result]⟩

/-- The method is found again. -/
theorem readsBack_methodDisk :
    ∃ report packages,
      plainProject.run methodDisk = ((plainProject.run methodDisk).1, .ok report) ∧
        plainProject.ReadsBack methodDisk (plainProject.run methodDisk).1 packages := by
  obtain ⟨report, ran⟩ := exists_report plainProject methodDisk (by decide +kernel)
  obtain ⟨packages, _, changesNothing⟩ :=
    converges_iff_of_run rfl rfl (by decide) (isTree_smallDisk _) ran
  exact ⟨report, packages, ran, changesNothing.mp (by decide +kernel)⟩

/-- The stub for a method that takes an interface literal cannot be read: the
name of the inner method is written like that of a type of the contract's
package. -/
theorem not_converges_literalDisk :
    ∃ report,
      plainProject.run literalDisk = ((plainProject.run literalDisk).1, .ok report) ∧
        ¬ plainProject.Converges (plainProject.run literalDisk).1.disk := by
  obtain ⟨report, ran⟩ := exists_report plainProject literalDisk (by decide +kernel)
  exact ⟨report, ran, by decide +kernel⟩

end Project

end Scaffold
