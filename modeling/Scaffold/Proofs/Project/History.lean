import Scaffold.Proofs.Disk.Building
import Scaffold.Proofs.Project.Planned

/-!
# The history of a run

Whatever becomes of a run, it plans packages one after the other and stores
planned files one after the other.  What it stored is the beginning of what
changed in the planned files, and everything that changed unless storing failed.
-/

namespace Scaffold

/-- A package with the outcome of planning it. -/
structure Planning where
  package : Package
  result : Except PlanFault (Option Plan)

namespace Planning

/-- The files that are to be written for the package; none without a plan. -/
def files (planning : Planning) : List Merged :=
  match planning.result with
  | .ok (some plan) => plan.files
  | _ => []

end Planning

/-- The files of all plans, in the order in which they are written. -/
def plannedFiles (plannings : List Planning) : List Merged :=
  plannings.flatMap Planning.files

/-- The planned files that are not yet as planned. -/
def changedFiles (plannings : List Planning) : List Merged :=
  (plannedFiles plannings).filter Merged.isChanged

namespace Project

/-- The package with the outcome of planning it on a disk. -/
def planning (project : Project) (found : Except ModuleFault Module) (disk : Disk)
    (package : Package) : Planning :=
  ⟨package, (project.planPackage disk found package.directory package.fileNames).result⟩

/-- What is planned for packages one after the other, until a step fails. -/
def plannings (project : Project) (found : Except ModuleFault Module) (progress : Progress) :
    List Package → List Planning
  | [] => []
  | package :: rest =>
    project.planning found progress.disk package ::
      match project.generatePackage found progress package with
      | (next, .ok ()) => project.plannings found next rest
      | (_, .error _) => []

/-- What a run on a disk plans. -/
def history (project : Project) (disk : Disk) : List Planning :=
  match Package.crawl disk project.settings.root project.settings.apiDirectory with
  | .error _ => []
  | .ok packages =>
    project.plannings (Module.find disk project.current project.settings.root) { disk := disk }
      packages

/-- Storing merged files one after the other leads from one disk to another. -/
inductive Stores (project : Project) : Disk → List Merged → Disk → Prop where
  | nil {disk} : Stores project disk [] disk
  | cons {before merged middle rest after}
      (first : project.store before merged.path merged.text = .ok middle)
      (later : Stores project middle rest after) :
      Stores project before (merged :: rest) after

variable {project : Project} {found : Except ModuleFault Module}

/-! ## What is stored -/

theorem Stores.append {before middle after : Disk} {left right : List Merged}
    (first : project.Stores before left middle) (second : project.Stores middle right after) :
    project.Stores before (left ++ right) after := by
  induction first with
  | nil => exact second
  | cons stored _ induction => exact .cons stored (induction second)

/-- A file that is written in a real run is stored if it changed. -/
theorem write_cases (real : project.settings.isDryRun = false) {progress next : Progress}
    {merged : Merged} {result : Except RunFault Outcome}
    (written : project.write progress merged = (next, result)) :
    (merged.isChanged = false ∧ next.disk = progress.disk ∧ result = .ok merged.outcome) ∨
      (merged.isChanged = true ∧ result = .ok merged.outcome ∧
        project.store progress.disk merged.path merged.text = .ok next.disk) ∨
      (merged.isChanged = true ∧ next.disk = progress.disk ∧ ∃ fault, result = .error fault) := by
  unfold write at written
  cases changed : merged.isChanged with
  | false =>
      simp only [changed, Bool.not_false, if_true, Prod.mk.injEq] at written
      exact .inl ⟨rfl, by rw [written.1], written.2.symm⟩
  | true =>
      simp only [changed, real, Bool.not_true, Bool.false_eq_true, if_false] at written
      split at written
      · simp only [Prod.mk.injEq] at written
        exact .inr (.inr ⟨rfl, by rw [written.1], _, written.2.symm⟩)
      · rename_i disk stored
        simp only [Prod.mk.injEq] at written
        refine .inr (.inl ⟨rfl, written.2.symm, ?_⟩)
        rw [stored, ← written.1]
        rfl

/-- Writing files stores a beginning of those that changed, and all of them if
it succeeds. -/
theorem stores_of_writeFiles (real : project.settings.isDryRun = false) (files : List Merged) :
    ∀ {progress next result}, project.writeFiles progress files = (next, result) →
      ∃ stored, project.Stores progress.disk stored next.disk ∧
        stored <+: files.filter Merged.isChanged ∧
        (result = .ok () → stored = files.filter Merged.isChanged) := by
  induction files with
  | nil =>
      intro progress next result written
      rw [writeFiles, Prod.mk.injEq] at written
      rw [← written.1]
      exact ⟨[], .nil, List.prefix_refl _, fun _ => rfl⟩
  | cons merged rest induction =>
      intro progress next result written
      rw [writeFiles] at written
      split at written
      · rename_i middle fault failed
        rw [Prod.mk.injEq] at written
        rw [← written.1, ← written.2]
        have same : middle.disk = progress.disk := by
          rcases write_cases real failed with ⟨_, _, impossible⟩ | ⟨_, impossible, _⟩ | ⟨_, same, _⟩
          · simp at impossible
          · simp at impossible
          · exact same
        exact ⟨[], same ▸ .nil, List.nil_prefix, by simp⟩
      · rename_i middle outcome first
        obtain ⟨stored, stores, beginning, all⟩ := induction written
        rcases write_cases real first with ⟨kept, same, _⟩ | ⟨changed, _, store⟩ | ⟨_, _, _, impossible⟩
        · rw [List.filter_cons_of_neg (by simp [kept])]
          exact ⟨stored, same ▸ stores, beginning, all⟩
        · rw [List.filter_cons_of_pos changed]
          refine ⟨merged :: stored, .cons store stores, ?_, ?_⟩
          · exact (List.prefix_cons_inj merged).mpr beginning
          · intro succeeded
            rw [all succeeded]
        · simp at impossible

/-- Generating a package stores a beginning of the planned files that changed. -/
theorem stores_of_generatePackage (real : project.settings.isDryRun = false)
    {progress next : Progress} {package : Package} {result : Except RunFault Unit}
    (generated : project.generatePackage found progress package = (next, result)) :
    ∃ stored, project.Stores progress.disk stored next.disk ∧
      stored <+: changedFiles [project.planning found progress.disk package] ∧
      (result = .ok () → stored = changedFiles [project.planning found progress.disk package]) ∧
      ∀ fault, (project.planning found progress.disk package).result = .error fault →
        result = .error (.ofPlan package.directory fault) := by
  unfold generatePackage at generated
  dsimp only at generated
  split at generated
  · rename_i fault failed
    rw [Prod.mk.injEq] at generated
    rw [← generated.1, ← generated.2]
    refine ⟨[], .nil, List.nil_prefix, by simp, ?_⟩
    intro other same
    rw [planning, failed, Except.error.injEq] at same
    rw [same]
  · rename_i planned
    rw [Prod.mk.injEq] at generated
    rw [← generated.1]
    refine ⟨[], .nil, List.nil_prefix, ?_, ?_⟩
    · intro _
      simp [changedFiles, plannedFiles, Planning.files, planning, planned]
    · intro fault failed
      rw [planning, planned] at failed
      simp at failed
  · rename_i plan planned
    obtain ⟨stored, stores, beginning, all⟩ := stores_of_writeFiles real _ generated
    have files : changedFiles [project.planning found progress.disk package] =
        plan.files.filter Merged.isChanged := by
      simp [changedFiles, plannedFiles, Planning.files, planning, planned]
    rw [files]
    refine ⟨stored, stores, beginning, all, ?_⟩
    intro fault failed
    rw [planning, planned] at failed
    simp at failed

theorem changedFiles_append (left right : List Planning) :
    changedFiles (left ++ right) = changedFiles left ++ changedFiles right := by
  simp [changedFiles, plannedFiles]

theorem changedFiles_cons (planning : Planning) (rest : List Planning) :
    changedFiles (planning :: rest) = changedFiles [planning] ++ changedFiles rest :=
  changedFiles_append [planning] rest

/-- Generating packages stores a beginning of the planned files that changed,
and all of them if it succeeds. -/
theorem stores_of_generatePackages (real : project.settings.isDryRun = false)
    (packages : List Package) :
    ∀ {progress next result}, project.generatePackages found progress packages = (next, result) →
      ∃ stored, project.Stores progress.disk stored next.disk ∧
        stored <+: changedFiles (project.plannings found progress packages) ∧
        (result = .ok () →
          stored = changedFiles (project.plannings found progress packages)) := by
  induction packages with
  | nil =>
      intro progress next result generated
      rw [generatePackages, Prod.mk.injEq] at generated
      rw [← generated.1]
      exact ⟨[], .nil, List.nil_prefix, fun _ => rfl⟩
  | cons package rest induction =>
      intro progress next result generated
      rw [generatePackages] at generated
      rw [plannings, changedFiles_cons]
      split at generated
      · rename_i middle fault failed
        rw [Prod.mk.injEq] at generated
        rw [← generated.1, ← generated.2]
        obtain ⟨stored, stores, beginning, _⟩ := stores_of_generatePackage real failed
        exact ⟨stored, stores, beginning.trans (List.prefix_append _ _), by simp⟩
      · rename_i middle first
        obtain ⟨own, ownStores, _, ownAll, _⟩ := stores_of_generatePackage real first
        obtain ⟨others, stores, beginning, all⟩ := induction generated
        rw [first, ← ownAll rfl]
        refine ⟨own ++ others, ownStores.append stores, ?_, ?_⟩
        · exact (List.prefix_append_right_inj own).mpr beginning
        · intro succeeded
          rw [all succeeded]

/-- A package that cannot be planned is the last one, and ends the run after
all earlier files were stored. -/
theorem stores_of_planning_error (real : project.settings.isDryRun = false)
    (packages : List Package) :
    ∀ {progress next result earlier failing later fault},
      project.generatePackages found progress packages = (next, result) →
      project.plannings found progress packages = earlier ++ failing :: later →
      failing.result = .error fault →
        later = [] ∧ result = .error (.ofPlan failing.package.directory fault) ∧
          project.Stores progress.disk (changedFiles earlier) next.disk := by
  induction packages with
  | nil =>
      intro progress next result earlier failing later fault _ planned _
      simp [plannings] at planned
  | cons package rest induction =>
      intro progress next result earlier failing later fault generated planned failed
      rw [generatePackages] at generated
      rw [plannings] at planned
      cases first : project.generatePackage found progress package with
      | mk middle outcome =>
          obtain ⟨own, ownStores, beginning, ownAll, onFault⟩ :=
            stores_of_generatePackage real first
          simp only [first] at generated planned
          cases earlier with
          | nil =>
              -- The package itself cannot be planned.
              obtain ⟨rfl, rest⟩ := List.cons.inj planned
              have ended := onFault fault failed
              simp only [ended] at generated rest
              have nothing : own = [] := by
                simpa [changedFiles, plannedFiles, Planning.files, failed] using beginning
              rw [nothing] at ownStores
              obtain ⟨rfl, rfl⟩ := Prod.mk.inj generated
              exact ⟨rest.symm, rfl, ownStores⟩
          | cons head others =>
              obtain ⟨rfl, following⟩ := List.cons.inj planned
              cases outcome with
              | error fault => simp at following
              | ok _ =>
                  obtain ⟨last, ended, stores⟩ := induction generated following failed
                  rw [changedFiles_cons, ← ownAll rfl]
                  exact ⟨last, ended, ownStores.append stores⟩

/-! ## What storing does to the disk -/

/-- Storing a file sets the content of its location and leaves every other file
as it was. -/
theorem content?_of_store {before after : Disk} {path text : Text} (tree : before.IsTree)
    (source : Text.endsWith Go.sourceSuffix path = true)
    (reaches : before.Reaches (project.fullPath path) (project.location path))
    (stored : project.store before path text = .ok after) :
    before.GrowsTo after ∧ Disk.mayBeFile (project.fullPath path) = true ∧
      after.content? (project.location path) = some (Utf8.encode text) ∧
      before.AgreesOutside (· = project.location path) after := by
  have grown := growsTo_of_store tree source stored
  obtain ⟨prepared, made, written⟩ := store_eq_ok_iff.mp stored
  have first := Disk.growsTo_of_makeDirectories tree made
  obtain ⟨possible, content, agrees⟩ :=
    Disk.content?_of_write (reaches.of_growsTo first) written
  exact ⟨grown, possible, content,
    (Disk.builds_of_makeDirectories made).agreesOutside.trans agrees⟩

/-- What storing files does to a disk on which their locations are known. -/
theorem Stores.spec {before after : Disk} {stored : List Merged}
    (stores : project.Stores before stored after) :
    before.IsTree →
      (∀ merged ∈ stored, Text.endsWith Go.sourceSuffix merged.path = true ∧
        before.Reaches (project.fullPath merged.path) (project.location merged.path)) →
      before.GrowsTo after ∧
        before.AgreesOutside
          (fun location => ∃ merged ∈ stored, location = project.location merged.path) after ∧
        (∀ merged ∈ stored, Disk.mayBeFile (project.fullPath merged.path) = true) ∧
        ((stored.map fun merged => project.location merged.path).Nodup →
          ∀ merged ∈ stored,
            after.content? (project.location merged.path) = some (Utf8.encode merged.text)) := by
  induction stores with
  | nil =>
      intro tree _
      exact ⟨.refl tree, .refl _ _, by simp, by simp⟩
  | @cons before merged middle rest after first later induction =>
      intro tree known
      obtain ⟨source, reaches⟩ := known merged List.mem_cons_self
      obtain ⟨grown, possible, content, agrees⟩ := content?_of_store tree source reaches first
      have knownLater : ∀ other ∈ rest, Text.endsWith Go.sourceSuffix other.path = true ∧
          middle.Reaches (project.fullPath other.path) (project.location other.path) := by
        intro other member
        obtain ⟨otherSource, otherReaches⟩ := known other (List.mem_cons_of_mem merged member)
        exact ⟨otherSource, otherReaches.of_growsTo grown⟩
      obtain ⟨grownLater, agreesLater, possibleLater, contents⟩ := induction grown.tree knownLater
      refine ⟨grown.trans grownLater, ?_, ?_, ?_⟩
      · apply (agrees.mono _).trans (agreesLater.mono _)
        · intro location same
          exact ⟨merged, List.mem_cons_self, same⟩
        · rintro location ⟨other, member, same⟩
          exact ⟨other, List.mem_cons_of_mem merged member, same⟩
      · intro other member
        cases List.mem_cons.mp member with
        | inl same => exact same ▸ possible
        | inr inside => exact possibleLater other inside
      · intro distinct other member
        rw [List.map_cons, List.nodup_cons] at distinct
        cases List.mem_cons.mp member with
        | inl same =>
            -- Nothing later goes to the same location.
            rw [same, agreesLater.contents, content]
            rintro ⟨next, listed, equal⟩
            exact distinct.1 (List.mem_map.mpr ⟨next, listed, equal.symm⟩)
        | inr inside => exact contents distinct.2 other inside

/-! ## Planned files of a run -/

/-- A file directly inside the home of one of some packages. -/
def IsInHomeOf (project : Project) (packages : List Package) (location : Location) : Prop :=
  ∃ package ∈ packages, ∃ way name, project.PackageAt way package ∧
    location = project.homeOf way ++ [name]

variable {disk : Disk} {packages : List Package}

theorem IsSurveyed.eq_of_home (surveyed : project.IsSurveyed disk packages)
    {first second : Package} (firstListed : first ∈ packages) (secondListed : second ∈ packages)
    {firstWay secondWay : Location} (firstAt : project.PackageAt firstWay first)
    (secondAt : project.PackageAt secondWay second) {firstName secondName : Text}
    (same : project.homeOf firstWay ++ [firstName] = project.homeOf secondWay ++ [secondName]) :
    first = second ∧ firstWay = secondWay := by
  have ways : firstWay = secondWay := by
    obtain ⟨homes, _⟩ := List.append_inj' same (by simp)
    exact List.append_cancel_left homes
  subst ways
  exact ⟨Package.eq_of_isAt surveyed.crawled firstListed secondListed firstAt secondAt, rfl⟩

/-- The home of a package is none of those of other packages. -/
theorem IsSurveyed.not_isInHomeOf (surveyed : project.IsSurveyed disk packages)
    {done : List Package} (earlier : ∀ other ∈ done, other ∈ packages) {package : Package}
    (listed : package ∈ packages) (new : package ∉ done) {way : Location}
    (placed : project.PackageAt way package) :
    ∀ name, ¬ project.IsInHomeOf done (project.homeOf way ++ [name]) := by
  rintro name ⟨other, member, otherWay, otherName, otherAt, same⟩
  have equal := (surveyed.eq_of_home listed (earlier other member) placed otherAt same).1
  exact new (equal ▸ member)

/-- How far the disk has come after some packages. -/
structure IsBehind (project : Project) (disk : Disk) (done : List Package) (later : Disk) :
    Prop where
  grown : disk.GrowsTo later
  agrees : disk.AgreesOutside (project.IsInHomeOf done) later

/-- The plan for a package that was not handled yet. -/
theorem IsBehind.planning (found : Except ModuleFault Module) (surveyed : project.IsSurveyed disk packages) {done : List Package}
    {later : Disk} (behind : project.IsBehind disk done later) {package : Package}
    (listed : package ∈ packages) (earlier : ∀ other ∈ done, other ∈ packages)
    (new : package ∉ done) {way : Location} (placed : project.PackageAt way package) :
    (∀ merged ∈ (project.planning found later package).files,
      project.IsPlannedIn disk (project.homeOf way) merged) ∧
      ((project.planning found later package).files.map
        fun merged => project.location merged.path).Nodup := by
  have kept := surveyed.not_isInHomeOf earlier listed new placed
  cases result : (project.planning found later package).result with
  | error fault => simp [Planning.files, result]
  | ok plan? =>
      cases plan? with
      | none => simp [Planning.files, result]
      | some plan =>
          have files : (project.planning found later package).files = plan.files := by
            simp [Planning.files, result]
          rw [files]
          exact surveyed.isPlannedIn listed placed behind.grown behind.agrees kept result

/-- Generating a package writes to its home only. -/
theorem IsBehind.generatePackage (real : project.settings.isDryRun = false)
    {done : List Package} {progress next : Progress}
    (behind : project.IsBehind disk done progress.disk) {package : Package} {way : Location}
    (placed : project.PackageAt way package)
    (planned : ∀ merged ∈ (project.planning found progress.disk package).files,
      project.IsPlannedIn disk (project.homeOf way) merged)
    {result : Except RunFault Unit}
    (generated : project.generatePackage found progress package = (next, result)) :
    project.IsBehind disk (done ++ [package]) next.disk := by
  obtain ⟨stored, stores, beginning, _⟩ := stores_of_generatePackage real generated
  have inside : ∀ merged ∈ stored, project.IsPlannedIn disk (project.homeOf way) merged := by
    intro merged member
    apply planned merged
    simpa [changedFiles, plannedFiles] using
      (List.mem_filter.mp (beginning.subset member)).1
  obtain ⟨grown, agrees, _⟩ := stores.spec behind.grown.tree (by
    intro merged member
    have facts := inside merged member
    exact ⟨facts.source, facts.reaches.of_growsTo behind.grown⟩)
  refine ⟨behind.grown.trans grown, (behind.agrees.mono ?_).trans (agrees.mono ?_)⟩
  · rintro location ⟨other, member, rest⟩
    exact ⟨other, List.mem_append_left _ member, rest⟩
  · rintro location ⟨merged, member, same⟩
    obtain ⟨name, place⟩ := (inside merged member).inside
    exact ⟨package, by simp, way, name, placed, same.trans place⟩

/-- The planning of a package that is one of some packages, with files planned
for its home. -/
def IsPlanning (project : Project) (disk : Disk) (packages : List Package)
    (planning : Planning) : Prop :=
  planning.package ∈ packages ∧ ∃ way, project.PackageAt way planning.package ∧
    ∀ merged ∈ planning.files, project.IsPlannedIn disk (project.homeOf way) merged

/-- Everything that is planned on the way is planned for the home of its
package, and no two planned files have the same location. -/
theorem IsSurveyed.isPlanning (real : project.settings.isDryRun = false)
    (surveyed : project.IsSurveyed disk packages) (rest : List Package) :
    ∀ {done : List Package} {progress : Progress}, project.IsBehind disk done progress.disk →
      (∀ package ∈ done ++ rest, package ∈ packages) → (done ++ rest).Nodup →
      (∀ planning ∈ project.plannings found progress rest,
        project.IsPlanning disk rest planning) ∧
      ((plannedFiles (project.plannings found progress rest)).map
        fun merged => project.location merged.path).Nodup := by
  induction rest with
  | nil =>
      intro done progress _ _ _
      simp [plannings, plannedFiles]
  | cons package rest induction =>
      intro done progress behind listed distinct
      have member : package ∈ packages := listed package (by simp)
      obtain ⟨way, placed⟩ :=
        Package.exists_isAt_of_crawl surveyed.fileSystem surveyed.crawled package member
      have new : package ∉ done := by
        intro old
        exact (List.nodup_append.mp distinct).2.2 package old package List.mem_cons_self rfl
      obtain ⟨own, ownDistinct⟩ := behind.planning found surveyed member
        (fun other old => listed other (List.mem_append_left _ old)) new placed
      have first : project.IsPlanning disk (package :: rest)
          (project.planning found progress.disk package) :=
        ⟨List.mem_cons_self, way, placed, own⟩
      cases generated : project.generatePackage found progress package with
      | mk next result =>
          simp only [plannings, generated]
          cases result with
          | error fault =>
              simp only [List.mem_singleton, forall_eq]
              exact ⟨first, by simpa [plannedFiles] using ownDistinct⟩
          | ok _ =>
              have step := behind.generatePackage real placed own generated
              obtain ⟨others, othersDistinct⟩ := induction step (by simpa using listed)
                (by simpa using distinct)
              simp only [List.forall_mem_cons]
              refine ⟨⟨first, ?_⟩, ?_⟩
              · intro planning later
                obtain ⟨known, rest⟩ := others planning later
                exact ⟨List.mem_cons_of_mem package known, rest⟩
              · rw [plannedFiles, List.flatMap_cons, List.map_append, List.nodup_append]
                refine ⟨ownDistinct, othersDistinct, ?_⟩
                -- Files of different packages have different homes.
                intro left leftMember right rightMember same
                obtain ⟨merged, mergedListed, rfl⟩ := List.mem_map.mp leftMember
                obtain ⟨other, otherListed, rfl⟩ := List.mem_map.mp rightMember
                obtain ⟨planning, later, inside⟩ := List.mem_flatMap.mp otherListed
                obtain ⟨known, otherWay, otherAt, otherFiles⟩ := others planning later
                obtain ⟨name, place⟩ := (own merged mergedListed).inside
                obtain ⟨otherName, otherPlace⟩ := (otherFiles other inside).inside
                have homes : project.homeOf way ++ [name] =
                    project.homeOf otherWay ++ [otherName] := by
                  rw [← place, ← otherPlace, same]
                have equal := (surveyed.eq_of_home member (listed _ (by simp [known])) placed
                  otherAt homes).1
                have apart := (List.nodup_append.mp distinct).2.1
                rw [List.nodup_cons] at apart
                exact apart.1 (equal ▸ known)

theorem IsSurveyed.isBehind (surveyed : project.IsSurveyed disk packages) :
    project.IsBehind disk [] disk :=
  ⟨.refl surveyed.fileSystem.tree, .refl _ _⟩

theorem IsSurveyed.nodup (surveyed : project.IsSurveyed disk packages) : packages.Nodup :=
  (Package.nodup_directory_of_crawl surveyed.crawled).of_map

/-- What a run plans is planned for the homes of the packages found, and no two
planned files have the same location. -/
theorem IsSurveyed.history (real : project.settings.isDryRun = false)
    (surveyed : project.IsSurveyed disk packages) :
    (∀ planning ∈ project.history disk, project.IsPlanning disk packages planning) ∧
      ((plannedFiles (project.history disk)).map
        fun merged => project.location merged.path).Nodup := by
  unfold Project.history
  rw [surveyed.crawled]
  exact surveyed.isPlanning real packages surveyed.isBehind (fun _ member => member)
    surveyed.nodup

/-! ## Outcomes of a run -/

/-- The registry is stored or left as it is. -/
theorem generateRegistry_cases (real : project.settings.isDryRun = false)
    {progress next : Progress} {result : Except RunFault (Option Outcome)}
    (registered : project.generateRegistry found progress = (next, result)) :
    next.disk = progress.disk ∨ progress.implementations ≠ [] ∧
      ∃ merged, (project.planRegistry progress.disk found progress.implementations).result =
          .ok merged ∧
        project.store progress.disk merged.path merged.text = .ok next.disk := by
  unfold generateRegistry at registered
  split at registered
  · left
    rw [← (Prod.mk.inj registered).1]
  · rename_i some
    dsimp only at registered
    split at registered
    · left
      rw [← (Prod.mk.inj registered).1]
      rfl
    · rename_i merged planned
      have written {outcome : Except RunFault Outcome}
          (result : project.write (progress.report (project.planRegistry progress.disk found
            progress.implementations).happenings) merged = (next, outcome)) :
          next.disk = progress.disk ∨ progress.implementations ≠ [] ∧
            ∃ merged, (project.planRegistry progress.disk found progress.implementations).result =
                .ok merged ∧
              project.store progress.disk merged.path merged.text = .ok next.disk := by
        rcases write_cases real result with ⟨_, same, _⟩ | ⟨_, _, stored⟩ | ⟨_, same, _⟩
        · exact .inl same
        · exact .inr ⟨by simpa [List.isEmpty_iff] using some, merged, planned, stored⟩
        · exact .inl same
      split at registered
      · rename_i result
        rw [(Prod.mk.inj registered).1] at result
        exact written result
      · rename_i result
        rw [(Prod.mk.inj registered).1] at result
        exact written result

/-- A real run plans and stores, whatever its outcome is.  The registry may be
stored last. -/
theorem run_cases (real : project.settings.isDryRun = false) {progress : Progress}
    {result : Except RunFault Report} (ran : project.run disk = (progress, result)) :
    (progress.disk = disk ∧ project.history disk = []) ∨
      ∃ packages middle stored,
        Package.crawl disk project.settings.root project.settings.apiDirectory = .ok packages ∧
          project.Stores disk stored middle ∧ stored <+: changedFiles (project.history disk) ∧
          (progress.disk = middle ∨
            packages ≠ [] ∧
              ∃ text, project.store middle project.settings.registryPath text =
                .ok progress.disk) := by
  unfold run at ran
  dsimp only at ran
  cases crawled : Package.crawl disk project.settings.root project.settings.apiDirectory with
  | error fault =>
      simp only [crawled, Prod.mk.injEq] at ran
      left
      rw [← ran.1]
      exact ⟨rfl, by simp [history, crawled]⟩
  | ok packages =>
      right
      simp only [crawled] at ran
      have planned : project.history disk =
          project.plannings (Module.find disk project.current project.settings.root)
            { disk := disk } packages := by
        simp [history, crawled]
      rw [planned]
      cases generated : project.generatePackages
          (Module.find disk project.current project.settings.root) { disk := disk } packages with
      | mk middle outcome =>
          obtain ⟨stored, stores, beginning, _⟩ := stores_of_generatePackages real packages generated
          refine ⟨packages, middle.disk, stored, rfl, stores, beginning, ?_⟩
          simp only [generated] at ran
          cases outcome with
          | error fault =>
              rw [Prod.mk.injEq] at ran
              left
              rw [ran.1]
          | ok _ =>
              cases registered : project.generateRegistry
                  (Module.find disk project.current project.settings.root) middle with
              | mk final registry =>
                  simp only [registered] at ran
                  have last : progress = final := by
                    cases registry <;> exact (Prod.mk.inj ran).1.symm
                  rw [last]
                  rcases generateRegistry_cases real registered with same | ⟨some, merged, planned, store⟩
                  · exact .inl same
                  · right
                    obtain ⟨module, _, _, rendered, text, previous?, _, _, _, rfl⟩ :=
                      result_planRegistry_eq_ok_iff.mp planned
                    refine ⟨?_, text, store⟩
                    rintro rfl
                    rw [generatePackages, Prod.mk.injEq] at generated
                    rw [← generated.1] at some
                    exact some rfl

end Project

end Scaffold
