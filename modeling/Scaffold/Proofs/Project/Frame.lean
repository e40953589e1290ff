import Scaffold.Proofs.Project.History
import Scaffold.Proofs.Project.Rerun

/-!
# What a run leaves alone

Whatever the outcome of a run is, it deletes no file and changes only planned
files and the registry, all of which stand in the implementation directory.
Where a package cannot be planned the run has stored everything that changed in
earlier packages and nothing else.
-/

namespace Scaffold

namespace Project

variable {project : Project} {disk : Disk} {packages : List Package}

/-! ## Stored files -/

/-- What storing some of the planned files does to the disk. -/
theorem IsSurveyed.spec_of_stores (real : project.settings.isDryRun = false)
    (surveyed : project.IsSurveyed disk packages) {stored : List Merged} {after : Disk}
    (stores : project.Stores disk stored after)
    (some : stored.Sublist (plannedFiles (project.history disk))) :
    disk.GrowsTo after ∧
      disk.AgreesOutside
        (fun location => ∃ merged ∈ stored, location = project.location merged.path) after ∧
      (∀ merged ∈ stored, Disk.mayBeFile (project.fullPath merged.path) = true) ∧
      ∀ merged ∈ stored,
        after.content? (project.location merged.path) = .some (Utf8.encode merged.text) := by
  obtain ⟨planned, distinct⟩ := surveyed.history real
  have known : ∀ merged ∈ stored, Text.endsWith Go.sourceSuffix merged.path = true ∧
      disk.Reaches (project.fullPath merged.path) (project.location merged.path) := by
    intro merged member
    obtain ⟨planning, listed, inside⟩ := List.mem_flatMap.mp (some.subset member)
    obtain ⟨_, way, _, files⟩ := planned planning listed
    exact ⟨(files merged inside).source, (files merged inside).reaches⟩
  obtain ⟨grown, agrees, possible, contents⟩ := stores.spec surveyed.fileSystem.tree known
  exact ⟨grown, agrees, possible, contents (distinct.sublist (some.map _))⟩

theorem changedFiles_sublist (plannings : List Planning) :
    (changedFiles plannings).Sublist (plannedFiles plannings) :=
  List.filter_sublist

theorem IsSurveyed.location_of_planned (real : project.settings.isDryRun = false)
    (surveyed : project.IsSurveyed disk packages) {merged : Merged}
    (planned : merged ∈ plannedFiles (project.history disk)) :
    project.location project.settings.implementationDirectory <+: project.location merged.path := by
  obtain ⟨planning, listed, inside⟩ := List.mem_flatMap.mp planned
  obtain ⟨_, way, _, files⟩ := (surveyed.history real).1 planning listed
  obtain ⟨name, place⟩ := (files merged inside).inside
  rw [place, homeOf, List.append_assoc]
  exact List.prefix_append _ _

/-- The registry stands directly inside the implementation directory. -/
theorem IsSurveyed.reaches_registryPath (surveyed : project.IsSurveyed disk packages)
    (something : packages ≠ []) :
    disk.Reaches (project.fullPath project.settings.registryPath)
        (project.location project.settings.registryPath) ∧
      project.location project.settings.registryPath =
        project.location project.settings.implementationDirectory ++
          [project.settings.registryName] := by
  have reaches := surveyed.valid.reaches_registryPath surveyed.fileSystem.tree
    (surveyed.root something)
  have place : project.location project.settings.registryPath =
      project.location project.settings.implementationDirectory ++
        [project.settings.registryName] := reaches.eq_place.symm
  exact ⟨place ▸ reaches, place⟩

/-- What storing the registry does to a disk that some planned files were stored
on. -/
theorem IsSurveyed.spec_of_registry (surveyed : project.IsSurveyed disk packages)
    (something : packages ≠ []) {middle after : Disk} {text : Text}
    (grown : disk.GrowsTo middle)
    (stored : project.store middle project.settings.registryPath text = .ok after) :
    Disk.mayBeFile (project.fullPath project.settings.registryPath) = true ∧
      after.content? (project.location project.settings.registryPath) = some (Utf8.encode text) ∧
      middle.AgreesOutside (· = project.location project.settings.registryPath) after := by
  have source := Path.endsWith_join (Bool.and_eq_true_iff.mp surveyed.valid.registry).1
    project.settings.implementationDirectory
  have reaches := (surveyed.reaches_registryPath something).1.of_growsTo grown
  exact (content?_of_store grown.tree source reaches stored).2

theorem map_package_plannings {found : Except ModuleFault Module} (packages : List Package) :
    ∀ {progress}, (project.plannings found progress packages).map Planning.package <+:
      packages := by
  induction packages with
  | nil =>
      intro progress
      simp [plannings]
  | cons package rest induction =>
      intro progress
      cases generated : project.generatePackage found progress package with
      | mk next result =>
          simp only [plannings, generated, List.map_cons]
          apply (List.prefix_cons_inj package).mpr
          cases result with
          | error fault => simp
          | ok _ => exact induction

theorem IsSurveyed.map_package_history (surveyed : project.IsSurveyed disk packages) :
    (project.history disk).map Planning.package <+: packages := by
  unfold Project.history
  rw [surveyed.crawled]
  exact map_package_plannings packages

theorem GeneratesAll.files_eq {found : Except ModuleFault Module} {progress next : Progress}
    {packages : List Package} (generated : project.GeneratesAll found progress packages next) :
    next.files = progress.files ++
      (plannedFiles (project.plannings found progress packages)).map Merged.outcome := by
  induction generated with
  | nil => simp [plannings, plannedFiles]
  | @cons progress package middle rest next first later induction =>
      have own : middle.files = progress.files ++
          (project.planning found progress.disk package).files.map Merged.outcome := by
        cases first with
        | without planned => simp [planning, Planning.files, planned, Progress.report]
        | implemented planned written =>
            rw [written.progress_eq.1]
            simp [planning, Planning.files, planned, adopt, Progress.report]
      rw [plannings, generatePackage_eq_ok_iff.mpr first, induction, own]
      simp [plannedFiles]

/-- How a package that cannot be planned ends a run. -/
theorem stores_of_history_error (real : project.settings.isDryRun = false) {progress : Progress}
    {result : Except RunFault Report} (ran : project.run disk = (progress, result))
    {earlier later : List Planning} {failing : Planning} {fault : PlanFault}
    (planned : project.history disk = earlier ++ failing :: later)
    (failed : failing.result = .error fault) :
    later = [] ∧ result = .error (.ofPlan failing.package.directory fault) ∧
      project.Stores disk (changedFiles earlier) progress.disk := by
  unfold history at planned
  unfold run at ran
  dsimp only at ran
  cases crawled : Package.crawl disk project.settings.root project.settings.apiDirectory with
  | error fault =>
      rw [crawled] at planned
      simp at planned
  | ok packages =>
      simp only [crawled] at ran planned
      cases generated : project.generatePackages
          (Module.find disk project.current project.settings.root) { disk := disk } packages with
      | mk middle outcome =>
          obtain ⟨last, ended, stores⟩ :=
            stores_of_planning_error real packages generated planned failed
          simp only [generated, ended, Prod.mk.injEq] at ran
          rw [← ran.1, ← ran.2]
          exact ⟨last, rfl, stores⟩

/-! ## The frame of a run -/

/-- What a run that could not plan a package leaves: everything that changed in
earlier packages is stored, and nothing else is touched, in particular no file in
the directory of a package that was not planned, nor the registry, unless its
path is that of a planned file. -/
structure IsAtomic (project : Project) (before after : Disk) (earlier : List Planning)
    (others : List Package) : Prop where
  stored : ∀ merged ∈ changedFiles earlier,
    after.content? (project.location merged.path) = some (Utf8.encode merged.text)
  nothingElse : ∀ location, after.content? location ≠ before.content? location →
    ∃ merged ∈ changedFiles earlier, location = project.location merged.path
  homes : ∀ package ∈ others, ∀ packagePath,
    Path.transplant project.settings.apiDirectory project.settings.implementationDirectory
        package.directory = .ok packagePath →
      ∀ name, after.content? (project.location packagePath ++ [name]) =
        before.content? (project.location packagePath ++ [name])
  registry :
    (∀ merged ∈ changedFiles earlier,
      project.location merged.path ≠ project.location project.settings.registryPath) →
      after.content? (project.location project.settings.registryPath) =
        before.content? (project.location project.settings.registryPath)

/-- The location of a planned file or of the registry. -/
def IsGenerated (project : Project) (disk : Disk) (location : Location) : Prop :=
  location = project.location project.settings.registryPath ∨
    ∃ merged ∈ plannedFiles (project.history disk), location = project.location merged.path

/-- What a run does to the disk whatever its outcome is. -/
structure IsFramed (project : Project) (before after : Disk) (result : Except RunFault Report) :
    Prop where
  kept : ∀ location content, before.content? location = some content →
    ∃ now, after.content? location = some now
  changed : ∀ location, after.content? location ≠ before.content? location →
    project.location project.settings.implementationDirectory <+: location ∧
      project.IsGenerated before location
  failed : ∀ earlier failing later fault,
    project.history before = earlier ++ failing :: later → failing.result = .error fault →
      result = .error (.ofPlan failing.package.directory fault) ∧
        ∃ others,
          Package.crawl before project.settings.root project.settings.apiDirectory =
              .ok (earlier.map Planning.package ++ failing.package :: others) ∧
            project.IsAtomic before after earlier (failing.package :: others)

/-- A disk that agrees with another one outside some locations at which it has
files lacks no file. -/
theorem exists_content?_of_agreesOutside {before after : Disk} {changed : Location → Prop}
    (agrees : before.AgreesOutside changed after)
    (present : ∀ location, changed location → ∃ now, after.content? location = some now)
    {location : Location} {content : Bytes} (file : before.content? location = some content) :
    ∃ now, after.content? location = some now := by
  by_cases touched : changed location
  · exact present location touched
  · exact ⟨content, by rw [agrees.contents location touched, file]⟩

/-- Storing everything that changed in earlier packages leaves all else alone. -/
theorem IsSurveyed.isAtomic (real : project.settings.isDryRun = false)
    (surveyed : project.IsSurveyed disk packages) {after : Disk}
    {earlier later : List Planning} {failing : Planning} {others : List Package}
    (planned : project.history disk = earlier ++ failing :: later)
    (whole : packages = earlier.map Planning.package ++ failing.package :: others)
    (stores : project.Stores disk (changedFiles earlier) after) :
    project.IsAtomic disk after earlier (failing.package :: others) := by
  have some : (changedFiles earlier).Sublist (plannedFiles (project.history disk)) := by
    rw [planned]
    have first : plannedFiles (earlier ++ failing :: later) =
        plannedFiles earlier ++ plannedFiles (failing :: later) := by
      simp [plannedFiles]
    rw [first]
    exact (changedFiles_sublist earlier).trans (List.sublist_append_left _ _)
  obtain ⟨_, agrees, _, contents⟩ := surveyed.spec_of_stores real stores some
  have nothingElse : ∀ location, after.content? location ≠ disk.content? location →
      ∃ merged ∈ changedFiles earlier, location = project.location merged.path := by
    intro location different
    by_contra untouched
    exact different (agrees.contents location untouched)
  refine ⟨contents, nothingElse, ?_, ?_⟩
  · intro package member packagePath transplanted name
    by_contra different
    obtain ⟨merged, changed, place⟩ := nothingElse _ different
    -- The file belongs to an earlier package, which has another home.
    obtain ⟨planning, listed, inside⟩ :=
      List.mem_flatMap.mp ((changedFiles_sublist earlier).subset changed)
    have known : planning ∈ project.history disk := by
      rw [planned]
      exact List.mem_append_left _ listed
    obtain ⟨found, way, placed, files⟩ := (surveyed.history real).1 planning known
    obtain ⟨fileName, filePlace⟩ := (files merged inside).inside
    have packageListed : package ∈ packages := by
      rw [whole]
      exact List.mem_append_right _ member
    obtain ⟨packageWay, packagePlaced⟩ :=
      Package.exists_isAt_of_crawl surveyed.fileSystem surveyed.crawled package packageListed
    have home := (surveyed.valid.reaches_packagePath surveyed.fileSystem.tree
      (surveyed.root (List.ne_nil_of_mem packageListed)) packagePlaced transplanted).eq_place
    have homes : project.homeOf packageWay ++ [name] = project.homeOf way ++ [fileName] := by
      rw [← filePlace, ← place, location, ← home, homeOf]
    have same := (surveyed.eq_of_home packageListed found packagePlaced placed homes).1
    have apart := surveyed.nodup
    rw [whole, List.nodup_append] at apart
    exact apart.2.2 package (same ▸ List.mem_map_of_mem listed) package member rfl
  · intro apart
    by_contra different
    obtain ⟨merged, changed, place⟩ := nothingElse _ different
    exact apart merged changed place.symm

/-- The changes of a run are files in the implementation directory, each of them
generated. -/
structure IsChangedBy (project : Project) (before after : Disk) (changed : Location → Prop) :
    Prop where
  outside : before.AgreesOutside changed after
  present : ∀ location, changed location → ∃ now, after.content? location = some now
  generated : ∀ location, changed location →
    project.location project.settings.implementationDirectory <+: location ∧
      project.IsGenerated before location

theorem IsSurveyed.isChangedBy (real : project.settings.isDryRun = false)
    (surveyed : project.IsSurveyed disk packages) {middle : Disk} {stored : List Merged}
    (stores : project.Stores disk stored middle)
    (some : stored.Sublist (plannedFiles (project.history disk))) :
    project.IsChangedBy disk middle fun location =>
      ∃ merged ∈ stored, location = project.location merged.path := by
  obtain ⟨_, agrees, _, contents⟩ := surveyed.spec_of_stores real stores some
  refine ⟨agrees, ?_, ?_⟩
  · rintro location ⟨merged, member, rfl⟩
    exact ⟨_, contents merged member⟩
  · rintro location ⟨merged, member, rfl⟩
    have planned := some.subset member
    exact ⟨surveyed.location_of_planned real planned, .inr ⟨merged, planned, rfl⟩⟩

theorem IsSurveyed.isChangedBy_registry (surveyed : project.IsSurveyed disk packages)
    (something : packages ≠ []) {middle after : Disk} {changed : Location → Prop}
    (grown : disk.GrowsTo middle) (before : project.IsChangedBy disk middle changed) {text : Text}
    (stored : project.store middle project.settings.registryPath text = .ok after) :
    project.IsChangedBy disk after fun location =>
      changed location ∨ location = project.location project.settings.registryPath := by
  obtain ⟨_, content, agrees⟩ := surveyed.spec_of_registry something grown stored
  refine ⟨?_, ?_, ?_⟩
  · exact (before.outside.mono fun _ touched => .inl touched).trans
      (agrees.mono fun _ touched => .inr touched)
  · intro location touched
    by_cases own : location = project.location project.settings.registryPath
    · exact ⟨_, own ▸ content⟩
    · obtain ⟨now, present⟩ := before.present location (touched.resolve_right own)
      exact ⟨now, by rw [agrees.contents location own, present]⟩
  · intro location touched
    cases touched with
    | inl file => exact before.generated location file
    | inr own =>
        rw [own]
        refine ⟨?_, .inl rfl⟩
        rw [(surveyed.reaches_registryPath something).2]
        exact List.prefix_append _ _

/-- A run changes nothing but planned files and the registry.  Where a package
cannot be planned, exactly the changed files of earlier packages are stored. -/
theorem run_isFramed {current : Text} {toolbox : Toolbox} {settings : Settings}
    (valid : Settings.validate settings.toValue = .ok ())
    (made : setUp current toolbox settings = .ok project)
    (real : project.settings.isDryRun = false) (fileSystem : disk.IsFileSystem) :
    project.IsFramed disk (project.run disk).1.disk (project.run disk).2 := by
  have isValid := isValid_of_setUp valid made
  cases ran : project.run disk with
  | mk progress result =>
  rcases run_cases real ran with ⟨same, nothing⟩ | ⟨packages, middle, stored, crawled, stores, beginning, registry⟩
  · refine ⟨?_, ?_, ?_⟩
    · intro location content present
      exact ⟨content, by rw [same, present]⟩
    · intro location different
      exact absurd (by rw [same]) different
    · intro earlier failing later fault planned
      simp [nothing] at planned
  · have surveyed : project.IsSurveyed disk packages := ⟨isValid, fileSystem, crawled⟩
    have some := beginning.sublist.trans (changedFiles_sublist (project.history disk))
    have grown := (surveyed.spec_of_stores real stores some).1
    have planned := surveyed.isChangedBy real stores some
    obtain ⟨changed, final⟩ : ∃ changed, project.IsChangedBy disk progress.disk changed := by
      rcases registry with same | ⟨something, text, store⟩
      · exact ⟨_, same ▸ planned⟩
      · exact ⟨_, surveyed.isChangedBy_registry something grown planned store⟩
    refine ⟨?_, ?_, ?_⟩
    · intro location content present
      exact exists_content?_of_agreesOutside final.outside final.present present
    · intro location different
      by_cases touched : changed location
      · exact final.generated location touched
      · exact absurd (final.outside.contents location touched) different
    · intro earlier failing later fault planned failed
      obtain ⟨rfl, ended, stores⟩ := stores_of_history_error real ran planned failed
      obtain ⟨others, whole⟩ := surveyed.map_package_history
      rw [planned, List.map_append, List.map_cons, List.map_nil, List.append_assoc,
        List.singleton_append] at whole
      exact ⟨ended, others, by rw [crawled, whole],
        surveyed.isAtomic real planned whole.symm stores⟩

/-! ## A package that cannot be planned -/

/-- Settings without a formatter. -/
def plainSettings (registry : Text) : Settings where
  root := .text "/p"
  apiDirectory := .text "api"
  implementationDirectory := .text "i"
  formatter := .text "none"
  registryName := .text registry

/-- A package with a contract, and one behind it that cannot be read. -/
def brokenDisk : Disk where
  entries :=
    [(["p"], .directory), (["p", "go.mod"], .file (Utf8.encode "module m\n")),
      (["p", "api"], .directory),
      (["p", "api", "a.go"],
        .file (Utf8.encode "package a\ntype ARepository interface\x7b\x7d\n")),
      (["p", "api", "b"], .directory), (["p", "api", "b", "b.go"], .file (Utf8.encode "package\n"))]

theorem isFileSystem_brokenDisk : brokenDisk.IsFileSystem := by
  constructor
  · apply Disk.isTree_of_entries
    simp [brokenDisk, Disk.entry?, Disk.find?]
  · decide +kernel

theorem isFileSystem_methodDisk : methodDisk.IsFileSystem :=
  ⟨isTree_smallDisk _, by decide +kernel⟩

/-- The first package is stored, and nothing else is touched. -/
theorem run_isFramed_brokenDisk :
    Settings.validate (plainSettings "r.go").toValue = .ok () ∧
      setUp "/p" plainProject.toolbox (plainSettings "r.go") = .ok plainProject ∧
      plainProject.settings.isDryRun = false ∧ brokenDisk.IsFileSystem ∧
      plainProject.IsFramed brokenDisk (plainProject.run brokenDisk).1.disk
        (plainProject.run brokenDisk).2 := by
  have valid : Settings.validate (plainSettings "r.go").toValue = .ok () := by decide +kernel
  have made : setUp "/p" plainProject.toolbox (plainSettings "r.go") = .ok plainProject := by
    rfl
  exact ⟨valid, made, rfl, isFileSystem_brokenDisk,
    run_isFramed valid made rfl isFileSystem_brokenDisk⟩

/-- A project whose registry has the name of an implementation file. -/
def overlappingProject : Project where
  settings := { plainProject.settings with registryName := "a_impl.go" }
  current := plainProject.current
  toolbox := plainProject.toolbox
  formatter := plainProject.formatter

/-- The first package stores its file at the path of the registry, before the
second one cannot be planned. -/
theorem registry_changed_before_fault :
    ∃ earlier failing fault,
      overlappingProject.history brokenDisk = earlier ++ [failing] ∧
        failing.result = .error fault ∧
        (overlappingProject.run brokenDisk).1.disk.content?
            (overlappingProject.location overlappingProject.settings.registryPath) ≠
          brokenDisk.content?
            (overlappingProject.location overlappingProject.settings.registryPath) := by
  have last : (overlappingProject.history brokenDisk).getLast?.any
      (fun planning => !planning.result.isOk) = true := by decide +kernel
  cases planned : (overlappingProject.history brokenDisk).getLast? with
  | none => simp [planned] at last
  | some failing =>
      obtain ⟨earlier, whole⟩ := List.getLast?_eq_some_iff.mp planned
      cases failed : failing.result with
      | ok plan? => simp [planned, failed, Except.isOk, Except.toBool] at last
      | error fault => exact ⟨earlier, failing, fault, whole, failed, by decide +kernel⟩

end Project

end Scaffold
