import Scaffold.Proofs.Project.Findings
import Scaffold.Proofs.Registry.Validity

/-!
# The registry of a run as a Go file

The implementations that a run finds for one directory share a package name, so
the registry can take its package from any that lies beside it.  Whether the
registry is a Go file is then a matter of the names that come from paths.
-/

namespace Scaffold

open Go (IsIdentifier)

namespace Project

variable {project : Project} {found : Except ModuleFault Module} {disk : Disk}
  {packages : List Package}

/-! ## Implementations of one directory -/

/-- The implementations lie where a directory leads to, under one package name. -/
def ShareHome (project : Project) (directory : Text) (implementations : List Implementation) :
    Prop :=
  ∃ name, ∀ implementation ∈ implementations,
    Path.transplant project.settings.apiDirectory project.settings.implementationDirectory
        directory = .ok implementation.packagePath ∧
      implementation.packageName = name

theorem IsPlanFor.shareHome {directory : Text} {contracts : List Contract} {plan : Plan}
    (planned : project.IsPlanFor disk found directory contracts plan) :
    project.ShareHome directory plan.implementations := by
  obtain ⟨facts, _, listed⟩ := planned.scanned
  refine ⟨facts.package?.getD (implementationPackageName
    ((contracts.head?.map Contract.packageName).getD [])), ?_⟩
  rw [listed, implementationsOf]
  intro implementation member
  obtain ⟨contract, _, rfl⟩ := List.mem_map.mp member
  obtain ⟨_, name, path⟩ := facts.implementation_eq
    (facts.package?.getD (implementationPackageName
      ((contracts.head?.map Contract.packageName).getD []))) plan.packagePath contract
  exact ⟨path.symm ▸ planned.placed, name⟩

theorem Generates.exists_shareHome {progress next : Progress} {package : Package}
    (generated : project.Generates found progress package next) :
    ∃ added, next.implementations = progress.implementations ++ added ∧
      project.ShareHome package.directory added := by
  cases generated with
  | without _ => exact ⟨[], (List.append_nil _).symm, [], by simp⟩
  | @implemented plan _ planned written =>
      obtain ⟨contracts, _, ⟨_, impossible⟩ | ⟨_, _, same, isPlan⟩⟩ :=
        result_planPackage_eq_ok_iff.mp planned
      · simp at impossible
      · rw [← Option.some.inj same] at isPlan
        exact ⟨plan.implementations, written.progress_eq.2.1, isPlan.shareHome⟩

/-- Different packages lead to different directories. -/
theorem IsSurveyed.eq_of_transplant (surveyed : project.IsSurveyed disk packages)
    {first second : Package} (firstListed : first ∈ packages) (secondListed : second ∈ packages)
    {packagePath : Text}
    (firstPlaced : Path.transplant project.settings.apiDirectory
      project.settings.implementationDirectory first.directory = .ok packagePath)
    (secondPlaced : Path.transplant project.settings.apiDirectory
      project.settings.implementationDirectory second.directory = .ok packagePath) :
    first = second := by
  obtain ⟨way, firstAt⟩ :=
    Package.exists_isAt_of_crawl surveyed.fileSystem surveyed.crawled first firstListed
  obtain ⟨otherWay, secondAt⟩ :=
    Package.exists_isAt_of_crawl surveyed.fileSystem surveyed.crawled second secondListed
  have parts := (surveyed.valid.components_transplant firstAt firstPlaced).1
  rw [(surveyed.valid.components_transplant secondAt secondPlaced).1] at parts
  rw [List.append_cancel_left parts] at secondAt
  exact Package.eq_of_isAt surveyed.crawled firstListed secondListed firstAt secondAt

/-- Implementations of one directory are in one package. -/
def AreAlike (first second : Implementation) : Prop :=
  first.packagePath = second.packagePath → first.packageName = second.packageName

instance : Std.Symm AreAlike where
  symm _ _ alike same := (alike same.symm).symm

/-- The packages of a run bring implementations that lie where these lead to, and
those of one directory are in one package. -/
theorem IsSurveyed.exists_alike (surveyed : project.IsSurveyed disk packages)
    {progress next : Progress} {rest : List Package}
    (generated : project.GeneratesAll found progress rest next)
    (listed : ∀ package ∈ rest, package ∈ packages) (distinct : rest.Nodup) :
    ∃ added, next.implementations = progress.implementations ++ added ∧
      (∀ implementation ∈ added, ∃ package ∈ rest,
        Path.transplant project.settings.apiDirectory project.settings.implementationDirectory
          package.directory = .ok implementation.packagePath) ∧
      added.Pairwise AreAlike := by
  induction generated with
  | nil => exact ⟨[], (List.append_nil _).symm, by simp, .nil⟩
  | @cons _ package _ rest _ first _ induction =>
      obtain ⟨here, listed⟩ := List.forall_mem_cons.mp listed
      obtain ⟨new, distinct⟩ := List.nodup_cons.mp distinct
      obtain ⟨added, own, name, shared⟩ := first.exists_shareHome
      obtain ⟨more, later, homes, alike⟩ := induction listed distinct
      refine ⟨added ++ more, by rw [later, own, List.append_assoc], ?_, ?_⟩
      · intro implementation member
        rcases List.mem_append.mp member with inside | behind
        · exact ⟨package, List.mem_cons_self, (shared implementation inside).1⟩
        · obtain ⟨other, known, placed⟩ := homes implementation behind
          exact ⟨other, List.mem_cons_of_mem _ known, placed⟩
      · have together : added.Pairwise AreAlike :=
          List.pairwise_of_forall_mem_list fun left leftMember right rightMember _ =>
            (shared left leftMember).2.trans (shared right rightMember).2.symm
        refine List.pairwise_append.mpr ⟨together, alike, ?_⟩
        intro left leftMember right rightMember same
        obtain ⟨other, known, placed⟩ := homes right rightMember
        have equal := surveyed.eq_of_transplant here (listed other known)
          (same ▸ (shared left leftMember).1) placed
        exact absurd (equal ▸ known) new

theorem IsSurveyed.packageName_eq (surveyed : project.IsSurveyed disk packages)
    {next : Progress} (generated : project.GeneratesAll found { disk := disk } packages next) :
    ∀ first ∈ next.implementations, ∀ second ∈ next.implementations,
      Path.normalize first.packagePath = Path.normalize second.packagePath →
        first.packageName = second.packageName := by
  obtain ⟨added, own, homes, alike⟩ :=
    surveyed.exists_alike generated (fun _ member => member) surveyed.nodup
  rw [List.nil_append] at own
  rw [own]
  intro first firstMember second secondMember same
  obtain ⟨_, _, firstPlaced⟩ := homes first firstMember
  obtain ⟨_, _, secondPlaced⟩ := homes second secondMember
  rw [Path.normalize_of_transplant firstPlaced, Path.normalize_of_transplant secondPlaced] at same
  exact List.Pairwise.forall_of_forall (fun _ _ _ => rfl) alike firstMember secondMember same

/-! ## The registry of a run -/

/-- A successful run that finds contracts renders a registry whose package is that
of the implementations beside it, or else the one that its directory suggests.
If its paths can be written down, the registry is read back with this package and
with the imports that were collected for it exactly if what it refers to can be
named in Go. -/
theorem registry_isReadAs_iff {current : Text} {toolbox : Toolbox} {settings : Settings}
    (valid : Settings.validate settings.toValue = .ok ())
    (made : setUp current toolbox settings = .ok project) (fileSystem : disk.IsFileSystem)
    {final : Progress} {report : Report} (ran : project.run disk = (final, .ok report))
    (something : final.implementations ≠ []) :
    ∃ module rendered package,
      Module.find disk project.current project.settings.root = .ok module ∧
        Registry.render ⟨project.settings.root, module⟩ project.current
          project.settings.implementationDirectory none final.implementations = .ok rendered ∧
        Registry.IsPackageOf ⟨project.settings.root, module⟩
          project.settings.implementationDirectory final.implementations package ∧
        (Registry.IsWritable ⟨project.settings.root, module⟩ project.current
            project.settings.implementationDirectory final.implementations →
          (Registry.IsReadAs rendered package
              (Registry.collected ⟨project.settings.root, module⟩
                project.settings.implementationDirectory final.implementations) ↔
            Registry.IsNameable ⟨project.settings.root, module⟩
              project.settings.implementationDirectory final.implementations)) := by
  obtain ⟨packages, middle, outcome?, crawled, generated, registered, -⟩ :=
    run_eq_ok_iff.mp ran
  have surveyed : project.IsSurveyed disk packages :=
    ⟨isValid_of_setUp valid made, fileSystem, crawled⟩
  obtain ⟨_, added, _, own, _, placed⟩ := generated.exists_reads
  rw [List.nil_append] at own
  cases registered with
  | nothing empty => exact absurd empty something
  | @written merged next _ planned written =>
      have kept : final.implementations = middle.implementations := written.progress_eq.2.1
      obtain ⟨module, known, _, rendered, _, _, result, _⟩ :=
        result_planRegistry_eq_ok_iff.mp planned
      rw [kept]
      have named : Registry.AreNamed middle.implementations := by
        intro implementation member
        have place := placed implementation (own ▸ member)
        exact ⟨place.package, place.contract⟩
      have isPackage := @Registry.isPackageOf_clauseName ⟨project.settings.root, module⟩
        project.settings.implementationDirectory _ (surveyed.packageName_eq generated)
      exact ⟨module, rendered, _, known, result, isPackage, fun writable =>
        (Registry.isReadAs_render_iff named writable result).trans
          (Registry.isNameable_iff named isPackage).symm⟩

/-- One contract, in a package below the API directory. -/
def branchedDisk : Disk where
  entries :=
    [(["p"], .directory), (["p", "go.mod"], .file (Utf8.encode "module m\n")),
      (["p", "api"], .directory), (["p", "api", "users"], .directory),
      (["p", "api", "users", "users.go"],
        .file (Utf8.encode "package users\ntype UserRepository interface\x7b\x7d\n"))]

theorem isFileSystem_branchedDisk : branchedDisk.IsFileSystem := by
  constructor
  · apply Disk.isTree_of_entries
    simp [branchedDisk, Disk.entry?, Disk.find?]
  · decide +kernel

/-- Settings with a dot in the implementation directory. -/
def dottedSettings : Settings :=
  { plainSettings "r.go" with implementationDirectory := .text "i.x" }

def dottedProject : Project :=
  { plainProject with settings := { plainProject.settings with implementationDirectory := "i.x" } }

theorem find_branchedDisk :
    Module.find branchedDisk "/p" "/p" = .ok ⟨"m", "/p"⟩ := by
  rfl

/-- The registry has no implementation beside it, and imports the one that there
is under a name of its own. -/
theorem registry_isReadAs_branchedDisk :
    Settings.validate (plainSettings "r.go").toValue = .ok () ∧
      setUp "/p" plainProject.toolbox (plainSettings "r.go") = .ok plainProject ∧
      branchedDisk.IsFileSystem ∧ (plainProject.run branchedDisk).1.implementations ≠ [] ∧
      ∃ report rendered package,
        plainProject.run branchedDisk = ((plainProject.run branchedDisk).1, .ok report) ∧
          Registry.render ⟨"/p", ⟨"m", "/p"⟩⟩ "/p" "i" none
            (plainProject.run branchedDisk).1.implementations = .ok rendered ∧
          Registry.IsReadAs rendered package (Registry.collected ⟨"/p", ⟨"m", "/p"⟩⟩ "i"
            (plainProject.run branchedDisk).1.implementations) := by
  have valid : Settings.validate (plainSettings "r.go").toValue = .ok () := by decide +kernel
  have made : setUp "/p" plainProject.toolbox (plainSettings "r.go") = .ok plainProject := by
    rfl
  have something : (plainProject.run branchedDisk).1.implementations ≠ [] := by decide +kernel
  obtain ⟨report, ran⟩ := exists_report plainProject branchedDisk (by decide +kernel)
  obtain ⟨module, rendered, package, known, result, _, readAs⟩ :=
    registry_isReadAs_iff valid made isFileSystem_branchedDisk ran something
  obtain rfl : module = ⟨"m", "/p"⟩ := Except.ok.inj (known.symm.trans find_branchedDisk)
  have listed : Registry.mockDirectives "/p" (Path.normalize "i")
      (Registry.sort (plainProject.run branchedDisk).1.implementations) =
        .ok [⟨"../api/users/users.go", "users/mocks/users.go"⟩] := by
    decide +kernel
  refine ⟨valid, made, isFileSystem_branchedDisk, something, report, rendered, package, ran,
    result, (readAs ⟨by decide +kernel, ?_⟩).mpr ⟨by decide +kernel, by decide +kernel⟩⟩
  intro directives answered
  rw [← Except.ok.inj (listed.symm.trans answered)]
  unfold Registry.AreInLine
  decide +kernel

theorem exists_of_toOption_any {Fault Value : Type} {result : Except Fault Value}
    {good : Value → Bool} (held : result.toOption.any good = true) :
    ∃ value, result = .ok value ∧ good value = true := by
  cases result with
  | error fault => simp [Except.toOption] at held
  | ok value => exact ⟨value, rfl, held⟩

/-- The name of the directory becomes the package of the registry as it is written,
and no file has a dot in its package. -/
theorem registry_not_read_of_dot :
    Settings.validate dottedSettings.toValue = .ok () ∧
      setUp "/p" plainProject.toolbox dottedSettings = .ok dottedProject ∧
      branchedDisk.IsFileSystem ∧
      ∃ report rendered,
        dottedProject.run branchedDisk = ((dottedProject.run branchedDisk).1, .ok report) ∧
          Registry.render ⟨"/p", ⟨"m", "/p"⟩⟩ "/p" "i.x" none
            (dottedProject.run branchedDisk).1.implementations = .ok rendered ∧
          (dottedProject.run branchedDisk).1.disk.fileAt?
              (dottedProject.fullPath dottedProject.settings.registryPath) =
            some (Utf8.encode rendered) ∧
          Go.SourceFile.ofText? rendered = none := by
  have valid : Settings.validate dottedSettings.toValue = .ok () := by decide +kernel
  have made : setUp "/p" plainProject.toolbox dottedSettings = .ok dottedProject := by
    rfl
  obtain ⟨report, ran⟩ := exists_report dottedProject branchedDisk (by decide +kernel)
  have written : (Registry.render ⟨"/p", ⟨"m", "/p"⟩⟩ "/p" "i.x" none
      (dottedProject.run branchedDisk).1.implementations).toOption.any (fun rendered =>
        (dottedProject.run branchedDisk).1.disk.fileAt?
            (dottedProject.fullPath dottedProject.settings.registryPath) ==
          some (Utf8.encode rendered) && (Go.SourceFile.ofText? rendered).isNone) = true := by
    decide +kernel
  obtain ⟨rendered, result, outcome⟩ := exists_of_toOption_any written
  simp only [Bool.and_eq_true, beq_iff_eq, Option.isNone_iff_eq_none] at outcome
  exact ⟨valid, made, isFileSystem_branchedDisk, report, rendered, ran, result, outcome⟩

end Project

end Scaffold
