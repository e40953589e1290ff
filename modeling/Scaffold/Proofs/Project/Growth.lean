import Scaffold.Proofs.Implementation.Scan
import Scaffold.Proofs.Module.Search
import Scaffold.Proofs.Project.Run

/-!
# What a run does to the disk

A run makes directories and writes source files, nothing else.  So the directory
of the contracts can still be crawled after it, and the module is still known.
-/

namespace Scaffold

open Disk (LeadsToSource)

/-! ## Directories that stay -/

namespace Disk

theorem at?_eq_directory_iff {disk : Disk} {path : Text} :
    disk.at? path = some .directory ↔
      holdsNull path = false ∧ ∃ location, disk.locate path = .ok location ∧
        disk.entry? location = some .directory := by
  unfold at?
  cases holdsNull path with
  | true => simp
  | false => cases disk.locate path <;> simp

theorem GrowsTo.locate_directory {before after : Disk} (grown : before.GrowsTo after)
    {path : Text} {location : Location} (located : before.locate path = .ok location)
    (directory : before.entry? location = some .directory) :
    after.locate path = .ok location := by
  unfold locate at located ⊢
  cases walked : before.walk [] (Path.components path) with
  | error fault => simp [walked] at located
  | ok reached =>
      simp only [walked] at located
      split at located
      · simp at located
      · have same : reached = location := Except.ok.inj located
        subst same
        have noFile := content?_of_directory (grown.directories reached directory)
        simp [grown.walk walked, noFile]

theorem GrowsTo.at?_directory {before after : Disk} (grown : before.GrowsTo after)
    {path : Text} (directory : before.at? path = some .directory) :
    after.at? path = some .directory := by
  obtain ⟨noNull, location, located, entry⟩ := at?_eq_directory_iff.mp directory
  exact at?_eq_directory_iff.mpr
    ⟨noNull, location, grown.locate_directory located entry, grown.directories location entry⟩

end Disk

namespace Package

/-- The packages of some files below a directory, as they are seen from the
root. -/
def groupBelow (root directory : Text) (files : List Found) : List Package :=
  let base := Path.components (Path.within root directory)
  group (files.map fun file =>
    (directoryAt (base.drop (Path.components root).length) file.way, file.name))

/-- A crawl succeeds on a directory that is there, and unless nothing is found it
is written as one below the root. -/
theorem crawl_eq_ok_iff {disk : Disk} {root directory : Text} {packages : List Package} :
    crawl disk root directory = .ok packages ↔
      ∃ location, disk.at? (Path.within root directory) = some .directory ∧
        disk.locate (Path.within root directory) = .ok location ∧
        (found disk location = [] ∧ packages = [] ∨
          found disk location ≠ [] ∧
            Path.isBelow root (Path.within root directory) = true ∧
            packages = groupBelow root directory (found disk location)) := by
  unfold crawl
  dsimp only
  cases present : disk.isDirectory (Path.within root directory) with
  | false =>
      have absent : disk.at? (Path.within root directory) ≠ some .directory := by
        simpa [Disk.isDirectory] using present
      simp [absent]
  | true =>
      have directoryThere : disk.at? (Path.within root directory) = some .directory := by
        simpa [Disk.isDirectory] using present
      simp only [if_true, directoryThere, true_and]
      cases located : disk.locate (Path.within root directory) with
      | error fault => simp
      | ok location =>
          cases files : found disk location with
          | nil =>
              simp only [files, Except.ok.injEq, exists_eq_left', ne_eq, not_true,
                false_and, or_false, true_and]
              exact eq_comm
          | cons first rest =>
              by_cases below : Path.isBelow root (Path.within root directory) = true
              · simp only [files, below, if_true, Except.ok.injEq, exists_eq_left', ne_eq,
                  reduceCtorEq, not_false_eq_true, true_and, false_and, false_or]
                exact eq_comm
              · simp [files, below]

theorem exists_crawl_of_growsTo {before after : Disk} (grown : before.GrowsTo after)
    {root directory : Text} {packages : List Package} (something : packages ≠ [])
    (crawled : crawl before root directory = .ok packages) :
    ∃ again, crawl after root directory = .ok again := by
  obtain ⟨location, present, located, ⟨_, nothing⟩ | ⟨_, below, _⟩⟩ := crawl_eq_ok_iff.mp crawled
  · exact absurd nothing something
  · obtain ⟨_, reached, same, entry⟩ := Disk.at?_eq_directory_iff.mp present
    have stays := grown.locate_directory same entry
    rw [located] at same
    rw [← Except.ok.inj same] at stays
    by_cases files : found after location = []
    · exact ⟨_, crawl_eq_ok_iff.mpr
        ⟨location, grown.at?_directory present, stays, .inl ⟨files, rfl⟩⟩⟩
    · exact ⟨_, crawl_eq_ok_iff.mpr
        ⟨location, grown.at?_directory present, stays, .inr ⟨files, below, rfl⟩⟩⟩

end Package

namespace Project

variable {project : Project}

/-! ## What is written -/

theorem leadsToSource_fullPath {path : Text}
    (source : Text.endsWith Go.sourceSuffix path = true) :
    LeadsToSource (project.fullPath path) := by
  obtain ⟨parts, last, split⟩ := Disk.leadsToSource_of_endsWith
    (Path.endsWith_join source project.settings.root)
  exact ⟨parts, last, by rw [fullPath, Path.within, Path.components_tidy, split]⟩

theorem store_eq_ok_iff {disk stored : Disk} {path text : Text} :
    project.store disk path text = .ok stored ↔
      ∃ prepared, disk.makeDirectories (Path.parent (project.fullPath path)) = .ok prepared ∧
        prepared.write (project.fullPath path) (Utf8.encode text) = .ok stored := by
  unfold store
  dsimp only
  cases disk.makeDirectories (Path.parent (project.fullPath path)) <;> simp

theorem growsTo_of_store {disk stored : Disk} (tree : disk.IsTree) {path text : Text}
    (source : Text.endsWith Go.sourceSuffix path = true)
    (result : project.store disk path text = .ok stored) : disk.GrowsTo stored := by
  obtain ⟨prepared, made, written⟩ := store_eq_ok_iff.mp result
  have first := Disk.growsTo_of_makeDirectories tree made
  exact first.trans (Disk.growsTo_of_write first.tree (leadsToSource_fullPath source) written)

theorem fileAt?_of_store {disk stored : Disk} (tree : disk.IsTree) {path text : Text}
    (source : Text.endsWith Go.sourceSuffix path = true)
    (result : project.store disk path text = .ok stored) :
    stored.fileAt? (project.fullPath path) = some (Utf8.encode text) := by
  obtain ⟨prepared, made, written⟩ := store_eq_ok_iff.mp result
  have first := Disk.growsTo_of_makeDirectories tree made
  exact Disk.fileAt?_of_write first.tree (leadsToSource_fullPath source) written

theorem Writes.growsTo {progress next : Progress} {merged : Merged}
    (written : project.Writes progress merged next) (tree : progress.disk.IsTree)
    (source : Text.endsWith Go.sourceSuffix merged.path = true) :
    progress.disk.GrowsTo next.disk := by
  cases written with
  | unchanged same => exact .refl tree
  | announced changed dry => exact .refl tree
  | stored changed real stored => exact growsTo_of_store tree source stored

theorem WritesAll.growsTo {progress next : Progress} {files : List Merged}
    (written : project.WritesAll progress files next) :
    progress.disk.IsTree →
      (∀ merged ∈ files, Text.endsWith Go.sourceSuffix merged.path = true) →
      progress.disk.GrowsTo next.disk := by
  induction written with
  | nil => exact fun tree _ => .refl tree
  | @cons progress merged middle rest next first later induction =>
      intro tree sources
      have step := first.growsTo tree (sources merged List.mem_cons_self)
      exact step.trans (induction step.tree
        fun other member => sources other (List.mem_cons_of_mem merged member))

/-- Everything that is planned is a source file. -/
theorem endsWith_path_of_isPlanFor
    {disk : Disk} {found : Except ModuleFault Module} {directory : Text}
    {contracts : List Contract} {plan : Plan}
    (planned : project.IsPlanFor disk found directory contracts plan) :
    ∀ merged ∈ plan.files, Text.endsWith Go.sourceSuffix merged.path = true := by
  obtain ⟨_, ⟨facts, scanned, listed⟩, files⟩ := planned
  have named : ∀ group ∈ Implementation.groupByFile plan.implementations,
      Text.endsWith Go.sourceSuffix group.1 = true := by
    intro group known
    obtain ⟨named, _⟩ := mem_groupByFile.mp known
    rw [listed] at named
    obtain ⟨implementation, member, same⟩ := List.mem_map.mp named
    obtain ⟨contract, _, rfl⟩ := List.mem_map.mp member
    rw [← same]
    exact PackageFacts.endsWith_fileName_implementation scanned contract
  intro merged member
  obtain ⟨group, known, result⟩ := exists_related_left files merged member
  obtain ⟨module, _, layout, previous?, text, _, _, rfl⟩ :=
    result_planFile_eq_ok_iff.mp result
  exact Path.endsWith_join (named group known) plan.packagePath

theorem Generates.growsTo {found : Except ModuleFault Module} {progress next : Progress}
    {package : Package} (generated : project.Generates found progress package next)
    (tree : progress.disk.IsTree) : progress.disk.GrowsTo next.disk := by
  cases generated with
  | without planned => exact .refl tree
  | @implemented plan _ planned written =>
      obtain ⟨contracts, _, ⟨_, impossible⟩ | ⟨_, _, same, isPlan⟩⟩ :=
        result_planPackage_eq_ok_iff.mp planned
      · exact absurd impossible (by simp)
      · rw [← Option.some.inj same] at isPlan
        exact written.growsTo tree (endsWith_path_of_isPlanFor isPlan)

theorem GeneratesAll.growsTo {found : Except ModuleFault Module} {progress next : Progress}
    {packages : List Package} (generated : project.GeneratesAll found progress packages next) :
    progress.disk.IsTree → progress.disk.GrowsTo next.disk := by
  induction generated with
  | nil => exact fun tree => .refl tree
  | cons first later induction =>
      intro tree
      have step := first.growsTo tree
      exact step.trans (induction step.tree)

theorem Registers.growsTo {found : Except ModuleFault Module} {progress final : Progress}
    {outcome? : Option Outcome} (registered : project.Registers found progress final outcome?)
    (valid : Text.endsWith Go.sourceSuffix project.settings.registryName = true)
    (tree : progress.disk.IsTree) : progress.disk.GrowsTo final.disk := by
  cases registered with
  | nothing empty => exact .refl tree
  | @written merged _ something planned written =>
      have source : Text.endsWith Go.sourceSuffix merged.path = true := by
        obtain ⟨module, _, _, rendered, text, previous?, _, _, _, rfl⟩ :=
          result_planRegistry_eq_ok_iff.mp planned
        exact Path.endsWith_join valid project.settings.implementationDirectory
      exact written.growsTo tree source

theorem growsTo_of_run {disk : Disk} {final : Progress} {report : Report}
    (ran : project.run disk = (final, .ok report)) (tree : disk.IsTree)
    (valid : Text.endsWith Go.sourceSuffix project.settings.registryName = true) :
    disk.GrowsTo final.disk := by
  obtain ⟨packages, middle, outcome?, _, generated, registered, _⟩ := run_eq_ok_iff.mp ran
  have first := generated.growsTo tree
  exact first.trans (registered.growsTo valid first.tree)

end Project

end Scaffold
