import Scaffold.Proofs.Project.Frame

/-!
# Rehearsals

A dry run writes nothing.  It plans every package on the disk as it was, a real
run on what earlier packages left.  Where contracts and implementations are
apart both find the same, so a dry run foretells what a real run reports.
-/

namespace Scaffold

namespace Contract

/-- Contracts that can be read on one disk are those of another one on which the
same files can be read. -/
theorem ofPackage_of_readable {before after : Disk} {root packagePath : Text}
    (fileNames : List Text) :
    (∀ name ∈ fileNames, ∀ content,
      after.read (Path.within root (Path.join packagePath name)) = .ok content →
        before.read (Path.within root (Path.join packagePath name)) = .ok content) →
    ∀ {contracts}, ofPackage after root packagePath fileNames = .ok contracts →
      ofPackage before root packagePath fileNames = .ok contracts := by
  induction fileNames with
  | nil => exact fun _ _ result => result
  | cons name rest induction =>
      intro readable contracts result
      rw [ofPackage] at result ⊢
      split at result
      · simp at result
      · rename_i source read
        rw [readable name List.mem_cons_self source read]
        dsimp only
        split at result
        · simp at result
        · rename_i own extracted
          split at result
          · simp at result
          · rename_i others later
            rw [induction (fun other member => readable other (List.mem_cons_of_mem name member))
              later]
            exact result

end Contract

namespace Project

/-- The project with runs that only tell what they would write. -/
def rehearsal (project : Project) : Project :=
  { project with settings := { project.settings with isDryRun := true } }

theorem setUp_rehearsal {current : Text} {toolbox : Toolbox} {settings : Settings}
    {project : Project} (made : setUp current toolbox settings = .ok project) :
    setUp current toolbox { settings with dryRun := .bool true } = .ok project.rehearsal := by
  unfold setUp at made ⊢
  unfold RunSettings.ofSettings? at made ⊢
  cases root : settings.root.text? with
  | none => simp [root] at made
  | some _ =>
      cases api : settings.apiDirectory.text? with
      | none => simp [root, api] at made
      | some _ =>
          cases implementation : settings.implementationDirectory.text? with
          | none => simp [root, api, implementation] at made
          | some _ =>
              cases registry : settings.registryName.text? with
              | none => simp [root, api, implementation, registry] at made
              | some _ =>
                  simp only [root, api, implementation, registry] at made ⊢
                  cases chosen : toolbox.formatter?.or
                      (settings.formatter.text?.bind (Formatter.choose? toolbox)) with
                  | none => simp [chosen] at made
                  | some formatter =>
                      simp only [chosen, Except.ok.injEq] at made ⊢
                      rw [← made]
                      rfl

/-! ## Dry runs write nothing -/

variable {project : Project} (found : Except ModuleFault Module)

theorem disk_of_write (dry : project.settings.isDryRun = true) (progress : Progress)
    (merged : Merged) : (project.write progress merged).1.disk = progress.disk := by
  unfold write
  cases merged.isChanged with
  | false => rfl
  | true =>
      simp only [dry, Bool.not_true, Bool.false_eq_true, if_false, if_true]
      rfl

theorem disk_of_writeFiles (dry : project.settings.isDryRun = true) (files : List Merged) :
    ∀ progress, (project.writeFiles progress files).1.disk = progress.disk := by
  induction files with
  | nil =>
      intro progress
      rfl
  | cons merged rest induction =>
      intro progress
      have first := disk_of_write dry progress merged
      rw [writeFiles]
      cases written : project.write progress merged with
      | mk next result =>
          rw [written] at first
          cases result with
          | error fault => exact first
          | ok outcome => exact (induction _).trans first

theorem disk_of_generatePackage (dry : project.settings.isDryRun = true) (progress : Progress)
    (package : Package) :
    (project.generatePackage found progress package).1.disk = progress.disk := by
  unfold generatePackage
  dsimp only
  split
  · rfl
  · rfl
  · exact disk_of_writeFiles dry _ _

theorem disk_of_generatePackages (dry : project.settings.isDryRun = true)
    (packages : List Package) :
    ∀ progress, (project.generatePackages found progress packages).1.disk = progress.disk := by
  induction packages with
  | nil =>
      intro progress
      rfl
  | cons package rest induction =>
      intro progress
      have first := disk_of_generatePackage found dry progress package
      rw [generatePackages]
      cases generated : project.generatePackage found progress package with
      | mk next result =>
          rw [generated] at first
          cases result with
          | error fault => exact first
          | ok _ => exact (induction next).trans first

theorem disk_of_generateRegistry (dry : project.settings.isDryRun = true) (progress : Progress) :
    (project.generateRegistry found progress).1.disk = progress.disk := by
  unfold generateRegistry
  split
  · rfl
  · dsimp only
    split
    · rfl
    · rename_i merged _
      have written := disk_of_write dry (progress.report
        (project.planRegistry progress.disk found progress.implementations).happenings) merged
      split <;> rename_i result <;> rw [result] at written <;> exact written

theorem disk_of_run (dry : project.settings.isDryRun = true) (disk : Disk) :
    (project.run disk).1.disk = disk := by
  unfold run
  dsimp only
  split
  · rfl
  · rename_i packages _
    have generated := disk_of_generatePackages
      (Module.find disk project.current project.settings.root) dry packages { disk := disk }
    split
    · rename_i result
      rw [result] at generated
      exact generated
    · rename_i middle result
      rw [result] at generated
      have registered := disk_of_generateRegistry
        (Module.find disk project.current project.settings.root) dry middle
      split <;> rename_i ended <;> rw [ended] at registered <;>
        exact registered.trans generated

/-! ## Plans on both disks -/

variable {found} {disk : Disk} {packages : List Package}

/-- The directories of contracts and implementations are not inside one
another. -/
structure IsApart (project : Project) : Prop where
  contracts : ¬ project.location project.settings.apiDirectory <+:
    project.location project.settings.implementationDirectory
  implementations : ¬ project.location project.settings.implementationDirectory <+:
    project.location project.settings.apiDirectory

theorem IsApart.not_isInHomeOf (apart : project.IsApart) {done : List Package}
    {location : Location} (inside : project.location project.settings.apiDirectory <+: location) :
    ¬ project.IsInHomeOf done location := by
  rintro ⟨package, _, way, name, _, same⟩
  have below : project.location project.settings.implementationDirectory <+: location := by
    rw [same, homeOf, List.append_assoc]
    exact List.prefix_append _ _
  cases List.prefix_or_prefix_of_prefix inside below with
  | inl above => exact apart.contracts above
  | inr above => exact apart.implementations above

theorem IsBehind.fileAt?_eq (surveyed : project.IsSurveyed disk packages) {done : List Package}
    {later : Disk} (behind : project.IsBehind disk done later) {path : Text} {location : Location}
    (reaches : disk.Reaches path location) (kept : ¬ project.IsInHomeOf done location) :
    later.fileAt? path = disk.fileAt? path := by
  apply Option.ext
  intro content
  rw [(reaches.of_growsTo behind.grown).fileAt?_eq_some_iff behind.grown.tree,
    reaches.fileAt?_eq_some_iff surveyed.fileSystem.tree, behind.agrees.contents _ kept]

/-- The contracts of a package are the same before and after others were
written. -/
theorem IsBehind.ofPackage_eq (surveyed : project.IsSurveyed disk packages)
    (apart : project.IsApart) {done : List Package} {later : Disk}
    (behind : project.IsBehind disk done later) {package : Package} (listed : package ∈ packages)
    {way : Location} (placed : project.PackageAt way package) {contracts : List Contract}
    (declared : Contract.ofPackage later project.settings.root package.directory
      package.fileNames = .ok contracts) :
    Contract.ofPackage disk project.settings.root package.directory package.fileNames =
      .ok contracts := by
  have directory := Package.reaches_directory surveyed.valid.up_not_mem_root surveyed.crawled
    listed placed
  apply Contract.ofPackage_of_readable package.fileNames _ declared
  intro name member content read
  have reaches : disk.Reaches (project.fullPath (Path.join package.directory name)) _ :=
    reaches_join placed.directory_ne_nil (placed.files name member) directory
  have same := behind.fileAt?_eq surveyed reaches (apart.not_isInHomeOf (by
    rw [List.append_assoc]
    exact List.prefix_append _ _))
  rw [Disk.read_eq_ok_iff] at read ⊢
  exact same.symm.trans read

theorem planFile_rehearsal {later : Disk} {path : Text} {implementations : List Implementation}
    (same : later.fileAt? (project.fullPath path) = disk.fileAt? (project.fullPath path)) :
    project.rehearsal.planFile disk found path implementations =
      project.planFile later found path implementations := by
  unfold planFile
  rw [same]
  rfl

/-- A plan that is made after others were written is made before as well. -/
theorem IsBehind.planPackage_eq (surveyed : project.IsSurveyed disk packages)
    (apart : project.IsApart) {done : List Package} {later : Disk}
    (behind : project.IsBehind disk done later) {package : Package} (listed : package ∈ packages)
    (earlier : ∀ other ∈ done, other ∈ packages) (new : package ∉ done) {plan? : Option Plan}
    (planned : (project.planPackage later found package.directory package.fileNames).result =
      .ok plan?) :
    (project.rehearsal.planPackage disk found package.directory package.fileNames).result =
      .ok plan? := by
  obtain ⟨way, placed⟩ :=
    Package.exists_isAt_of_crawl surveyed.fileSystem surveyed.crawled package listed
  obtain ⟨contracts, declared, outcome⟩ := result_planPackage_eq_ok_iff.mp planned
  refine result_planPackage_eq_ok_iff.mpr
    ⟨contracts, behind.ofPackage_eq surveyed apart listed placed declared, ?_⟩
  rcases outcome with nothing | ⟨something, plan, rfl, isPlan⟩
  · exact .inl nothing
  · refine .inr ⟨something, plan, rfl, isPlan.placed, ?_, ?_⟩
    · obtain ⟨facts, collected, same⟩ := isPlan.scanned
      have home := surveyed.valid.reaches_packagePath surveyed.fileSystem.tree
        (surveyed.root (List.ne_nil_of_mem listed)) placed isPlan.placed
      have scanned := sourceFiles_eq_of_agreesOutside surveyed.fileSystem.tree behind.grown
        behind.agrees home (surveyed.not_isInHomeOf earlier listed new placed)
      unfold HasFacts at collected
      unfold fullPath at scanned
      rw [scanned] at collected
      exact ⟨facts, collected, same⟩
    · have own := surveyed.isPlannedIn listed placed behind.grown behind.agrees
        (surveyed.not_isInHomeOf earlier listed new placed) planned
      -- Each file is planned on the disk as it was.
      apply List.Forall₂.flip
      apply ((List.forall₂_and_left _ _).mpr ⟨own.1, isPlan.merged.flip⟩).imp
      rintro merged group ⟨inside, result⟩
      obtain ⟨module, _, isMerged⟩ := result_planFile_eq_ok_iff.mp result
      obtain ⟨name, place⟩ := inside.inside
      have reaches := inside.reaches
      rw [path_of_isMergedFile isMerged] at reaches place
      have kept := surveyed.not_isInHomeOf earlier listed new placed name
      rw [← place] at kept
      exact (congrArg Attempt.result
        (planFile_rehearsal (behind.fileAt?_eq surveyed reaches kept))).trans result

/-! ## Steps of both runs -/

/-- The progress of a dry run on a disk tells what a real run has done. -/
structure Foretells (disk : Disk) (ahead progress : Progress) : Prop where
  disk : ahead.disk = disk
  files : ahead.files = progress.files
  implementations : ahead.implementations = progress.implementations
  packages : ahead.packages = progress.packages

theorem Writes.packages_eq {progress next : Progress} {merged : Merged}
    (written : project.Writes progress merged next) : next.packages = progress.packages := by
  cases written <;> rfl

theorem WritesAll.packages_eq {progress next : Progress} {files : List Merged}
    (written : project.WritesAll progress files next) : next.packages = progress.packages := by
  induction written with
  | nil => rfl
  | cons first _ induction =>
      rw [induction, ← first.packages_eq]

theorem exists_writes (dry : project.settings.isDryRun = true) (progress : Progress)
    (merged : Merged) :
    ∃ next, project.Writes progress merged next ∧ next.disk = progress.disk := by
  cases changed : merged.isChanged with
  | false => exact ⟨progress, .unchanged changed, rfl⟩
  | true => exact ⟨_, .announced changed dry, rfl⟩

theorem exists_writesAll (dry : project.settings.isDryRun = true) (files : List Merged) :
    ∀ progress, ∃ next, project.WritesAll progress files next ∧ next.disk = progress.disk := by
  induction files with
  | nil => exact fun progress => ⟨progress, .nil, rfl⟩
  | cons merged rest induction =>
      intro progress
      obtain ⟨middle, first, kept⟩ := exists_writes dry progress merged
      obtain ⟨next, later, same⟩ :=
        induction { middle with files := middle.files ++ [merged.outcome] }
      exact ⟨next, .cons first later, same.trans kept⟩

/-- A dry run generates a package that a real run generates, and tells the
same of it. -/
theorem Generates.exists_rehearsal (surveyed : project.IsSurveyed disk packages)
    (apart : project.IsApart) {done : List Package} {ahead progress next : Progress}
    (behind : project.IsBehind disk done progress.disk) (foretells : Foretells disk ahead progress)
    {package : Package} (listed : package ∈ packages) (earlier : ∀ other ∈ done, other ∈ packages)
    (new : package ∉ done) (generated : project.Generates found progress package next) :
    ∃ told, project.rehearsal.Generates found ahead package told ∧ Foretells disk told next := by
  cases generated with
  | without planned =>
      have before := behind.planPackage_eq surveyed apart listed earlier new planned
      rw [← foretells.disk] at before
      exact ⟨_, .without before, foretells.disk, foretells.files, foretells.implementations,
        foretells.packages⟩
  | @implemented plan _ planned written =>
      have before := behind.planPackage_eq surveyed apart listed earlier new planned
      rw [← foretells.disk] at before
      have dry : project.rehearsal.settings.isDryRun = true := rfl
      obtain ⟨told, writes, kept⟩ := exists_writesAll dry plan.files
        (adopt (ahead.report (project.rehearsal.planPackage ahead.disk found package.directory
          package.fileNames).happenings) plan)
      obtain ⟨files, implementations, _⟩ := written.progress_eq
      obtain ⟨toldFiles, toldImplementations, _⟩ := writes.progress_eq
      refine ⟨told, .implemented before writes, kept.trans foretells.disk, ?_, ?_, ?_⟩
      · rw [toldFiles, files]
        exact congrArg (· ++ plan.files.map Merged.outcome) foretells.files
      · rw [toldImplementations, implementations]
        exact congrArg (· ++ plan.implementations) foretells.implementations
      · rw [writes.packages_eq, written.packages_eq]
        exact congrArg (· + 1) foretells.packages

theorem GeneratesAll.exists_rehearsal (real : project.settings.isDryRun = false)
    (surveyed : project.IsSurveyed disk packages) (apart : project.IsApart) {rest : List Package}
    {progress next : Progress} (generated : project.GeneratesAll found progress rest next) :
    ∀ {done ahead}, project.IsBehind disk done progress.disk → Foretells disk ahead progress →
      (∀ package ∈ done ++ rest, package ∈ packages) → (done ++ rest).Nodup →
        ∃ told, project.rehearsal.GeneratesAll found ahead rest told ∧
          Foretells disk told next := by
  induction generated with
  | nil =>
      intro done ahead _ foretells _ _
      exact ⟨ahead, .nil, foretells⟩
  | @cons progress package middle rest next first later induction =>
      intro done ahead behind foretells listed distinct
      have member : package ∈ packages := listed package (by simp)
      have earlier : ∀ other ∈ done, other ∈ packages := fun other old =>
        listed other (List.mem_append_left _ old)
      have new : package ∉ done := by
        intro old
        exact (List.nodup_append.mp distinct).2.2 package old package List.mem_cons_self rfl
      obtain ⟨told, foretold, here⟩ :=
        first.exists_rehearsal surveyed apart behind foretells member earlier new
      obtain ⟨way, placed⟩ :=
        Package.exists_isAt_of_crawl surveyed.fileSystem surveyed.crawled package member
      obtain ⟨own, _⟩ := behind.planning found surveyed member earlier new placed
      have step := behind.generatePackage real placed own (generatePackage_eq_ok_iff.mpr first)
      obtain ⟨last, others, there⟩ := induction step here (by simpa using listed)
        (by simpa using distinct)
      exact ⟨last, .cons foretold others, there⟩

/-! ## The registry -/

/-- The text of the registry before it is written is the one before the run,
unless a planned file was stored at its path; then that file could be read
before the run. -/
theorem IsSurveyed.registryText?_cases (real : project.settings.isDryRun = false)
    (surveyed : project.IsSurveyed disk packages) (something : packages ≠ [])
    {stored : List Merged} {middle : Disk} (stores : project.Stores disk stored middle)
    (some : stored.Sublist (plannedFiles (project.history disk))) :
    project.registryText? middle project.settings.registryPath =
        project.registryText? disk project.settings.registryPath ∨
      (∃ merged ∈ stored, merged.path = project.settings.registryPath) ∧
        ∃ previous?, project.registryText? disk project.settings.registryPath = .ok previous? := by
  obtain ⟨grown, agrees, _, _⟩ := surveyed.spec_of_stores real stores some
  obtain ⟨reaches, place⟩ := surveyed.reaches_registryPath something
  by_cases touched : ∃ merged ∈ stored,
      project.location project.settings.registryPath = project.location merged.path
  · right
    obtain ⟨merged, member, same⟩ := touched
    obtain ⟨planning, listed, inside⟩ := List.mem_flatMap.mp (some.subset member)
    obtain ⟨_, way, _, files⟩ := (surveyed.history real).1 planning listed
    have path : merged.path = project.settings.registryPath :=
      (files merged inside).top _ (same.symm.trans place)
    refine ⟨⟨merged, member, path⟩, ?_⟩
    obtain ⟨previous?, read⟩ := (files merged inside).readable
    rw [path] at read
    cases previous? with
    | none => exact ⟨none, by simp [registryText?, read]⟩
    | some text =>
        exact ⟨.some (Text.universalNewlines text), by
          simp [registryText?, read, Utf8.decode_encode]⟩
  · left
    have same : middle.fileAt? (project.fullPath project.settings.registryPath) =
        disk.fileAt? (project.fullPath project.settings.registryPath) := by
      apply Option.ext
      intro content
      rw [(reaches.of_growsTo grown).fileAt?_eq_some_iff grown.tree,
        reaches.fileAt?_eq_some_iff surveyed.fileSystem.tree, agrees.contents _ touched]
    unfold registryText?
    rw [same]

/-- After the packages the registry reads as before, or a planned file has its
path. -/
theorem IsSurveyed.registry_readable (real : project.settings.isDryRun = false)
    (surveyed : project.IsSurveyed disk packages) {middle : Progress}
    (generated : project.GeneratesAll (Module.find disk project.current project.settings.root)
      { disk := disk } packages middle) :
    project.registryText? middle.disk project.settings.registryPath =
        project.registryText? disk project.settings.registryPath ∨
      project.settings.registryPath ∈ middle.files.map Outcome.path ∧
        ∃ previous?, project.registryText? disk project.settings.registryPath = .ok previous? := by
  have history : project.history disk = project.plannings
      (Module.find disk project.current project.settings.root) { disk := disk } packages := by
    simp [Project.history, surveyed.crawled]
  obtain ⟨stored, stores, _, all⟩ :=
    stores_of_generatePackages real packages (generatePackages_eq_ok_iff.mpr generated)
  have changed := all rfl
  rw [← history] at changed
  by_cases something : packages = []
  · subst something
    cases generated with
    | nil => exact .inl rfl
  · rcases surveyed.registryText?_cases real something stores
      (changed ▸ changedFiles_sublist (project.history disk)) with
      same | ⟨⟨merged, member, path⟩, possible⟩
    · exact .inl same
    · right
      refine ⟨?_, possible⟩
      rw [generated.files_eq, ← history, List.nil_append, List.map_map, ← path]
      rw [changed] at member
      exact List.mem_map_of_mem (f := Outcome.path ∘ Merged.outcome)
        ((changedFiles_sublist _).subset member)

theorem Registers.files_eq {progress final : Progress} {outcome? : Option Outcome}
    (registered : project.Registers found progress final outcome?) :
    final.files = progress.files := by
  cases registered with
  | nothing empty => rfl
  | written something planned written => exact written.progress_eq.1

/-- A dry run tells of the registry what a real run tells, unless it is a planned
file as well. -/
theorem Registers.exists_rehearsal {ahead progress final : Progress} {outcome? : Option Outcome}
    (foretells : Foretells disk ahead progress)
    (readable : project.registryText? progress.disk project.settings.registryPath =
        project.registryText? disk project.settings.registryPath ∨
      project.settings.registryPath ∈ progress.files.map Outcome.path ∧
        ∃ previous?, project.registryText? disk project.settings.registryPath = .ok previous?)
    (registered : project.Registers found progress final outcome?) :
    ∃ told toldRegistry?, project.rehearsal.Registers found ahead told toldRegistry? ∧
      Foretells disk told final ∧
      (project.settings.registryPath ∉ progress.files.map Outcome.path →
        toldRegistry? = outcome?) := by
  cases registered with
  | nothing empty =>
      exact ⟨ahead, none, .nothing (foretells.implementations.trans empty), foretells,
        fun _ => rfl⟩
  | written something planned written =>
      obtain ⟨module, known, visited, rendered, text, previous?, result, formatted, read, rfl⟩ :=
        result_planRegistry_eq_ok_iff.mp planned
      obtain ⟨before?, readBefore⟩ : ∃ before?,
          project.registryText? disk project.settings.registryPath = .ok before? := by
        rcases readable with same | ⟨_, possible⟩
        · exact ⟨previous?, same.symm.trans read⟩
        · exact possible
      have plannedBefore : (project.rehearsal.planRegistry ahead.disk found
          ahead.implementations).result =
            .ok ⟨project.settings.registryPath, text, before?, 0, 0⟩ := by
        rw [foretells.disk, foretells.implementations]
        exact result_planRegistry_eq_ok_iff.mpr
          ⟨module, known, visited, rendered, text, before?, result, formatted, readBefore, rfl⟩
      have dry : project.rehearsal.settings.isDryRun = true := rfl
      obtain ⟨told, writes, kept⟩ := exists_writes dry
        (ahead.report (project.rehearsal.planRegistry ahead.disk found
          ahead.implementations).happenings)
        ⟨project.settings.registryPath, text, before?, 0, 0⟩
      have somethingBefore : ahead.implementations ≠ [] := by
        rw [foretells.implementations]
        exact something
      refine ⟨told, _, .written somethingBefore plannedBefore writes, ?_, ?_⟩
      · obtain ⟨files, implementations, _⟩ := written.progress_eq
        obtain ⟨toldFiles, toldImplementations, _⟩ := writes.progress_eq
        refine ⟨kept.trans foretells.disk, ?_, ?_, ?_⟩
        · rw [toldFiles, files]
          exact foretells.files
        · rw [toldImplementations, implementations]
          exact foretells.implementations
        · rw [writes.packages_eq, written.packages_eq]
          exact foretells.packages
      · intro apart
        have same := readable.resolve_right fun touched => apart touched.1
        rw [readBefore, read, Except.ok.injEq] at same
        rw [same]

/-- A dry run leaves the disk as it was, and if a real run succeeds it succeeds
and reports the same. -/
theorem run_rehearsal {current : Text} {toolbox : Toolbox} {settings : Settings}
    (valid : Settings.validate settings.toValue = .ok ())
    (made : setUp current toolbox settings = .ok project)
    (real : project.settings.isDryRun = false) (apart : project.IsApart)
    (fileSystem : disk.IsFileSystem) :
    ∃ dry, setUp current toolbox { settings with dryRun := .bool true } = .ok dry ∧
      (dry.run disk).1.disk = disk ∧
      ∀ final report, project.run disk = (final, .ok report) →
        ∃ told foretold, dry.run disk = (told, .ok foretold) ∧
          foretold.packages = report.packages ∧ foretold.contracts = report.contracts ∧
          foretold.files = report.files ∧
          (project.settings.registryPath ∉ report.files.map Outcome.path →
            foretold.registry? = report.registry?) := by
  refine ⟨project.rehearsal, setUp_rehearsal made, disk_of_run rfl disk, ?_⟩
  intro final report ran
  obtain ⟨packages, middle, outcome?, crawled, generated, registered, rfl⟩ :=
    run_eq_ok_iff.mp ran
  have surveyed : project.IsSurveyed disk packages :=
    ⟨isValid_of_setUp valid made, fileSystem, crawled⟩
  have start : Foretells disk { disk := disk } { disk := disk } := ⟨rfl, rfl, rfl, rfl⟩
  obtain ⟨ahead, generatedAhead, foretells⟩ := generated.exists_rehearsal real surveyed apart
    surveyed.isBehind start (fun _ member => member) surveyed.nodup
  have readable := surveyed.registry_readable real generated
  obtain ⟨told, toldRegistry?, registeredAhead, same, registry⟩ :=
    registered.exists_rehearsal foretells readable
  have foretold : project.rehearsal.run disk =
      (told, .ok (project.rehearsal.reportOf told toldRegistry?)) :=
    run_eq_ok_iff.mpr ⟨packages, ahead, toldRegistry?, crawled, generatedAhead, registeredAhead, rfl⟩
  refine ⟨told, _, foretold, same.packages, ?_, same.files, ?_⟩
  · exact congrArg List.length same.implementations
  · intro elsewhere
    apply registry
    rw [← registered.files_eq]
    exact elsewhere

/-- Two packages with contracts, and no implementation directory yet. -/
def twinDisk : Disk where
  entries :=
    [(["p"], .directory), (["p", "go.mod"], .file (Utf8.encode "module m\n")),
      (["p", "api"], .directory),
      (["p", "api", "a.go"],
        .file (Utf8.encode "package a\ntype ARepository interface\x7b Get() \x7d\n")),
      (["p", "api", "x"], .directory),
      (["p", "api", "x", "b.go"],
        .file (Utf8.encode "package x\ntype BRepository interface\x7b\x7d\n"))]

/-- A dry run foretells both packages, though the second one finds the directory
that the real run makes for the first one. -/
theorem run_rehearsal_twinDisk :
    ∃ dry final report told foretold,
      setUp "/p" plainProject.toolbox { plainSettings "r.go" with dryRun := .bool true } =
          .ok dry ∧
        plainProject.run twinDisk = (final, .ok report) ∧ report.packages = 2 ∧
        dry.run twinDisk = (told, .ok foretold) ∧ told.disk = twinDisk ∧
        foretold.packages = report.packages ∧ foretold.files = report.files ∧
        foretold.registry? = report.registry? := by
  have fileSystem : twinDisk.IsFileSystem :=
    ⟨Disk.isTree_of_entries (by decide +kernel), by decide +kernel⟩
  have apart : plainProject.IsApart := ⟨by decide +kernel, by decide +kernel⟩
  have valid : Settings.validate (plainSettings "r.go").toValue = .ok () := by decide +kernel
  have made : setUp "/p" plainProject.toolbox (plainSettings "r.go") = .ok plainProject := by
    rfl
  obtain ⟨report, ran⟩ := exists_report plainProject twinDisk (by decide +kernel)
  have known : (plainProject.run twinDisk).2.toOption.map (fun report =>
      decide (report.packages = 2 ∧
        plainProject.settings.registryPath ∉ report.files.map Outcome.path)) = some true := by
    decide +kernel
  rw [ran, Except.toOption, Option.map_some, Option.some.injEq, decide_eq_true_eq] at known
  obtain ⟨dry, made, disk, foretells⟩ := run_rehearsal valid made rfl apart fileSystem
  obtain ⟨told, foretold, foreran, packages, _, files, registry⟩ := foretells _ report ran
  rw [foreran] at disk
  exact ⟨dry, _, report, told, foretold, made, ran, known.1, foreran, disk, packages, files,
    registry known.2⟩

end Project

end Scaffold
