import Scaffold.Proofs.Path.Relative
import Scaffold.Proofs.Project.Faults
import Scaffold.Proofs.Project.Freshness
import Scaffold.Proofs.Registry.Order

/-!
# How runs fail

A run is documented to fail with one kind of fault.  It keeps to that unless the
contracts are found outside the root, or the character zero in a setting comes
up where a path is used for more than looking.
-/

namespace Scaffold

namespace Project

variable {project : Project} {found : Except ModuleFault Module} {disk : Disk}

/-! ## Packages -/

/-- Nothing can be written to the implementation directory. -/
def CannotWrite (project : Project) : Prop :=
  project.settings.isDryRun = false ∧
    Disk.holdsNull project.settings.implementationDirectory = true

theorem IsPlanFor.files_ne_nil {directory : Text} {contracts : List Contract} {plan : Plan}
    (something : contracts ≠ [])
    (planned : project.IsPlanFor disk found directory contracts plan) : plan.files ≠ [] := by
  intro nothing
  obtain ⟨facts, _, listed⟩ := planned.scanned
  obtain ⟨first, rest, rfl⟩ := List.exists_cons_of_ne_nil something
  have paths := path_of_isPlanFor planned
  rw [nothing, listed, List.map_nil, eq_comm, List.map_eq_nil_iff] at paths
  have member : (facts.implementation _ plan.packagePath first).fileName ∈
      Sorting.distinct ((implementationsOf plan.packagePath facts (first :: rest)).map
        Implementation.fileName) :=
    Sorting.mem_distinct.mpr (List.mem_map_of_mem (List.mem_map_of_mem List.mem_cons_self))
  rw [paths] at member
  exact absurd member List.not_mem_nil

theorem isChanged_of_holdsNull {module : Module} {path : Text}
    {implementations : List Implementation} {merged : Merged}
    (planned : project.IsMergedFile disk module path implementations merged)
    (null : Disk.holdsNull (project.fullPath merged.path) = true) : merged.isChanged = true := by
  have absent : disk.fileAt? (project.fullPath merged.path) = none := by
    simp [Disk.fileAt?, Disk.at?, null]
  have previous := previous_of_isMergedFile planned
  rw [absent, Option.map_eq_none_iff] at previous
  simp [Merged.isChanged, previous]

/-- Generating a package fails over the character zero exactly where nothing can
be written and something is planned, and otherwise in a documented way. -/
theorem generatePackage_cases (valid : project.IsValid) {way : Location} {package : Package}
    (readable : project.CanBeRead way package) {progress next : Progress}
    {result : Except RunFault Unit} (intact : IsIntact progress.disk)
    (generated : project.generatePackage found progress package = (next, result)) :
    (project.CannotWrite ∧ (project.planning found progress.disk package).files ≠ [] ∧
        result = .error .nullCharacter) ∨
      ((project.CannotWrite → (project.planning found progress.disk package).files = []) ∧
        IsIntact next.disk ∧ ∀ fault, result = .error fault → fault.isDocumented = true) := by
  unfold generatePackage at generated
  dsimp only at generated
  split at generated
  · rename_i fault failed
    obtain ⟨rfl, rfl⟩ := Prod.mk.inj generated
    right
    refine ⟨fun _ => by simp [Planning.files, planning, failed], intact, ?_⟩
    intro other same
    rw [← Except.error.inj same, RunFault.ofPlan, readable.isNullCharacter_of_planPackage failed]
    rfl
  · rename_i planned
    obtain ⟨rfl, rfl⟩ := Prod.mk.inj generated
    right
    exact ⟨fun _ => by simp [Planning.files, planning, planned], intact, by simp⟩
  · rename_i plan planned
    have files : (project.planning found progress.disk package).files = plan.files := by
      simp [Planning.files, planning, planned]
    rw [files]
    obtain ⟨contracts, declared, ⟨_, impossible⟩ | ⟨something, _, same, isPlan⟩⟩ :=
      result_planPackage_eq_ok_iff.mp planned
    · simp at impossible
    rw [← Option.some.inj same] at isPlan
    have paths := readable.holdsNull_of_isPlanFor valid intact declared isPlan
    by_cases cannot : project.CannotWrite
    · -- The first file of the plan cannot be written.
      left
      refine ⟨cannot, isPlan.files_ne_nil something, ?_⟩
      obtain ⟨first, rest, split⟩ := List.exists_cons_of_ne_nil (isPlan.files_ne_nil something)
      have listed : first ∈ plan.files := split ▸ List.mem_cons_self
      obtain ⟨whole, parent⟩ := paths first listed
      rw [cannot.2] at whole parent
      obtain ⟨group, _, merged⟩ := exists_related_left isPlan.merged first listed
      obtain ⟨module, _, isMerged⟩ := result_planFile_eq_ok_iff.mp merged
      rw [split, writeFiles, write_eq_nullCharacter cannot.1
        (isChanged_of_holdsNull isMerged whole)
        (store_eq_nullCharacter_iff.mpr (.inl parent))] at generated
      exact (Prod.mk.inj generated).2.symm
    · right
      refine ⟨fun can => absurd can cannot, ?_⟩
      apply isDocumented_of_writeFiles plan.files _ _ generated
      · intro merged listed real
        obtain ⟨whole, parent⟩ := paths merged listed
        have clean : Disk.holdsNull project.settings.implementationDirectory = false :=
          Bool.not_eq_true _ ▸ fun null => cannot ⟨real, null⟩
        exact ⟨whole.trans clean, parent.trans clean⟩
      · exact intact

theorem plannedFiles_cons (planning : Planning) (rest : List Planning) :
    plannedFiles (planning :: rest) = planning.files ++ plannedFiles rest := rfl

/-- Generating packages fails over the character zero exactly where nothing can
be written and something is planned, and otherwise in a documented way. -/
theorem generatePackages_cases (valid : project.IsValid) (packages : List Package) :
    (∀ package ∈ packages, ∃ way, project.CanBeRead way package) →
      ∀ {progress next : Progress} {result : Except RunFault Unit}, IsIntact progress.disk →
        project.generatePackages found progress packages = (next, result) →
          (project.CannotWrite ∧
              plannedFiles (project.plannings found progress packages) ≠ [] ∧
              result = .error .nullCharacter) ∨
            ((project.CannotWrite →
                plannedFiles (project.plannings found progress packages) = []) ∧
              IsIntact next.disk ∧ ∀ fault, result = .error fault → fault.isDocumented = true) := by
  induction packages with
  | nil =>
      intro _ progress next result intact generated
      rw [generatePackages, Prod.mk.injEq] at generated
      rw [← generated.1, ← generated.2]
      exact .inr ⟨fun _ => rfl, intact, by simp⟩
  | cons package rest induction =>
      intro readable progress next result intact generated
      obtain ⟨way, first⟩ := readable package List.mem_cons_self
      have others : ∀ other ∈ rest, ∃ way, project.CanBeRead way other :=
        fun other member => readable other (List.mem_cons_of_mem package member)
      rw [generatePackages] at generated
      cases step : project.generatePackage found progress package with
      | mk middle outcome =>
          rw [step] at generated
          rw [plannings, plannedFiles_cons]
          simp only [step]
          rcases generatePackage_cases valid first intact step with
            ⟨cannot, planned, rfl⟩ | ⟨nothing, between, documented⟩
          · obtain ⟨_, rfl⟩ := Prod.mk.inj generated
            exact .inl ⟨cannot, List.append_ne_nil_of_left_ne_nil planned _, rfl⟩
          · cases outcome with
            | error fault =>
                obtain ⟨rfl, rfl⟩ := Prod.mk.inj generated
                right
                refine ⟨fun cannot => ?_, between, fun other same => ?_⟩
                · rw [nothing cannot]
                  rfl
                · exact documented other (by rw [Except.error.inj same])
            | ok done =>
                rcases induction others between generated with
                  ⟨cannot, planned, failed⟩ | ⟨nothingLater, last, later⟩
                · exact .inl ⟨cannot, List.append_ne_nil_of_right_ne_nil _ planned, failed⟩
                · right
                  refine ⟨fun cannot => ?_, last, later⟩
                  rw [nothing cannot, nothingLater cannot]
                  rfl

/-! ## Implementations -/

/-- An implementation in the implementation directory, of a contract that has a
file. -/
structure IsHoused (project : Project) (implementation : Implementation) : Prop where
  path : Disk.holdsNull implementation.packagePath =
    Disk.holdsNull project.settings.implementationDirectory
  declared : implementation.contract.definitionPath ≠ []

theorem Generates.isHoused (valid : project.IsValid) {way : Location} {package : Package}
    (readable : project.CanBeRead way package) {progress next : Progress}
    (generated : project.Generates found progress package next)
    (housed : ∀ implementation ∈ progress.implementations, project.IsHoused implementation) :
    ∀ implementation ∈ next.implementations, project.IsHoused implementation := by
  obtain ⟨contracts, added, declared, grown, own, placed⟩ := generated.exists_contracts
  intro implementation member
  rw [grown] at member
  cases List.mem_append.mp member with
  | inl old => exact housed implementation old
  | inr new =>
      have listed : implementation.contract ∈ contracts := own ▸ List.mem_map_of_mem new
      have home := (placed implementation new).home
      rw [Contract.packagePath_of_ofPackage declared _ listed] at home
      have named := Contract.fileName_of_ofPackage _ declared _ listed
      exact ⟨readable.holdsNull_packagePath valid home,
        Path.join_ne_nil (readable.placed.files _ named).1.1 _⟩

theorem GeneratesAll.isHoused (valid : project.IsValid) {packages : List Package}
    {progress next : Progress} (generated : project.GeneratesAll found progress packages next) :
    (∀ package ∈ packages, ∃ way, project.CanBeRead way package) →
      (∀ implementation ∈ progress.implementations, project.IsHoused implementation) →
        ∀ implementation ∈ next.implementations, project.IsHoused implementation := by
  induction generated with
  | nil => exact fun _ housed => housed
  | cons first _ induction =>
      intro readable housed
      obtain ⟨way, here⟩ := readable _ List.mem_cons_self
      apply induction (fun other member => readable other (List.mem_cons_of_mem _ member))
      exact first.isHoused valid here housed

/-- Without planned files there are no implementations. -/
theorem GeneratesAll.implementations_eq {packages : List Package} {progress next : Progress}
    (generated : project.GeneratesAll found progress packages next) :
    plannedFiles (project.plannings found progress packages) = [] →
      next.implementations = progress.implementations := by
  induction generated with
  | nil => exact fun _ => rfl
  | @cons progress package middle rest next first _ induction =>
      intro nothing
      have step := generatePackage_eq_ok_iff.mpr first
      rw [plannings, plannedFiles_cons, List.append_eq_nil_iff] at nothing
      simp only [step] at nothing
      rw [induction nothing.2]
      cases first with
      | without planned => rfl
      | @implemented plan _ planned written =>
          obtain ⟨contracts, _, ⟨_, impossible⟩ | ⟨something, _, same, isPlan⟩⟩ :=
            result_planPackage_eq_ok_iff.mp planned
          · simp at impossible
          · rw [← Option.some.inj same] at isPlan
            have files : (project.planning found progress.disk package).files = plan.files := by
              simp [Planning.files, planning, planned]
            rw [files] at nothing
            exact absurd nothing.1 (isPlan.files_ne_nil something)

/-! ## Where files were written -/

/-- A file that was written in a real run is there. -/
theorem Writes.fileAt?_eq (real : project.settings.isDryRun = false) {progress next : Progress}
    {merged : Merged} (written : project.Writes progress merged next)
    (tree : progress.disk.IsTree) (source : Text.endsWith Go.sourceSuffix merged.path = true)
    (before : merged.previous?.map Utf8.encode =
      progress.disk.fileAt? (project.fullPath merged.path)) :
    next.disk.fileAt? (project.fullPath merged.path) = some (Utf8.encode merged.text) := by
  cases written with
  | unchanged same => exact (Merged.isChanged_eq_false_iff_map before).mp same
  | announced changed dry => exact absurd (real.symm.trans dry) (by simp)
  | stored changed real stored => exact fileAt?_of_store tree source stored

/-- The implementation directory is there. -/
def HasImplementationDirectory (project : Project) (disk : Disk) : Prop :=
  ∃ base,
    disk.walk [] (Path.components (project.fullPath project.settings.implementationDirectory)) =
        .ok base ∧
      disk.entry? base = some .directory

theorem HasImplementationDirectory.of_growsTo {later : Disk}
    (present : project.HasImplementationDirectory disk) (grown : disk.GrowsTo later) :
    project.HasImplementationDirectory later := by
  obtain ⟨base, walked, directory⟩ := present
  exact ⟨base, grown.walk walked, grown.directories base directory⟩

/-- Generating a package with contracts leaves a file in the implementation
directory. -/
theorem Generates.hasImplementationDirectory (valid : project.IsValid)
    (real : project.settings.isDryRun = false) {way : Location} {package : Package}
    (readable : project.CanBeRead way package) {progress next : Progress}
    (tree : progress.disk.IsTree) (intact : IsIntact progress.disk)
    (generated : project.Generates found progress package next) :
    next.implementations = progress.implementations ∨
      project.HasImplementationDirectory next.disk := by
  cases generated with
  | without planned => exact .inl rfl
  | @implemented plan _ planned written =>
      right
      obtain ⟨contracts, declared, ⟨_, impossible⟩ | ⟨something, _, same, isPlan⟩⟩ :=
        result_planPackage_eq_ok_iff.mp planned
      · simp at impossible
      rw [← Option.some.inj same] at isPlan
      have sources := endsWith_path_of_isPlanFor isPlan
      have paths := readable.exists_components_of_isPlanFor valid intact declared isPlan
      have merges := exists_related_left isPlan.merged
      cases files : plan.files with
      | nil => exact absurd files (isPlan.files_ne_nil something)
      | cons first rest =>
          rw [files] at written sources paths merges
          cases written with
          | @cons _ _ middle _ _ step later =>
              obtain ⟨group, _, merged⟩ := merges first List.mem_cons_self
              obtain ⟨module, _, isMerged⟩ := result_planFile_eq_ok_iff.mp merged
              have source := sources first List.mem_cons_self
              have grown := step.growsTo tree source
              have there := step.fileAt?_eq real tree source (previous_of_isMergedFile isMerged)
              obtain ⟨_, location, walked, _⟩ := Disk.fileAt?_eq_some_iff.mp there
              obtain ⟨name, _, parts⟩ := paths first List.mem_cons_self
              rw [parts, Disk.walk_append_iff] at walked
              obtain ⟨base, reached, below⟩ := walked
              have directory : middle.disk.entry? base = some .directory := by
                cases split : way ++ [name] with
                | nil => simp at split
                | cons step others =>
                    rw [split] at below
                    exact (Disk.walk_cons_eq_ok_iff.mp below).1
              have present : project.HasImplementationDirectory middle.disk :=
                ⟨base, reached, directory⟩
              exact present.of_growsTo (later.growsTo grown.tree
                fun other member => sources other (List.mem_cons_of_mem _ member))

theorem GeneratesAll.hasImplementationDirectory (valid : project.IsValid)
    (real : project.settings.isDryRun = false) {packages : List Package}
    {progress next : Progress} (generated : project.GeneratesAll found progress packages next) :
    (∀ package ∈ packages, ∃ way, project.CanBeRead way package) → progress.disk.IsTree →
      IsIntact progress.disk →
        next.implementations = progress.implementations ∨
          project.HasImplementationDirectory next.disk := by
  induction generated with
  | nil => exact fun _ _ _ => .inl rfl
  | @cons progress package middle rest next first later induction =>
      intro readable tree intact
      obtain ⟨way, here⟩ := readable package List.mem_cons_self
      have between : IsIntact middle.disk := by
        rcases generatePackage_cases valid here intact (generatePackage_eq_ok_iff.mpr first) with
          ⟨_, _, impossible⟩ | ⟨_, between, _⟩
        · simp at impossible
        · exact between
      have grown := first.growsTo tree
      rcases first.hasImplementationDirectory valid real here tree intact with same | present
      · rw [← same]
        exact induction (fun other member => readable other (List.mem_cons_of_mem _ member))
          grown.tree between
      · exact .inr (present.of_growsTo (later.growsTo grown.tree))

/-! ## The registry -/

theorem components_registryPath (valid : project.IsValid) :
    Path.components (project.fullPath project.settings.registryPath) =
      Path.components (project.fullPath project.settings.implementationDirectory) ++
        [project.settings.registryName] := by
  obtain ⟨path, same⟩ := valid.implementation
  have something : project.settings.implementationDirectory ≠ [] := by
    rw [same]
    exact Path.normalize_ne_nil path
  obtain ⟨parts, kind⟩ := Path.components_join_name valid.registryName_proper.1 something
  exact Path.components_within_append kind parts

/-- The import paths that the registry needs hold the character zero if the
implementation directory does and a package is not directly inside. -/
theorem any_holdsNull_visited {implementations : List Implementation}
    (something : implementations ≠ [])
    (housed : ∀ implementation ∈ implementations, project.IsHoused implementation) :
    (Registry.visited project.settings.implementationDirectory implementations).any
        Disk.holdsNull = true ↔
      Disk.holdsNull project.settings.implementationDirectory = true ∧
        ∃ implementation ∈ implementations,
          Path.normalize implementation.packagePath ≠
            Path.normalize project.settings.implementationDirectory := by
  unfold Registry.visited
  dsimp only
  rw [List.any_append, Bool.or_eq_true]
  constructor
  · rintro (directory | inside)
    · split at directory
      · simp at directory
      · rename_i foreign
        obtain ⟨first, rest, rfl⟩ := List.exists_cons_of_ne_nil something
        refine ⟨by simpa using directory, first, List.mem_cons_self, ?_⟩
        intro same
        simp [same] at foreign
    · obtain ⟨path, listed, null⟩ := List.any_eq_true.mp inside
      obtain ⟨known, foreign⟩ := List.mem_filter.mp listed
      obtain ⟨implementation, member, rfl⟩ := List.mem_map.mp known
      rw [(housed implementation member).path] at null
      exact ⟨null, implementation, member, by simpa using foreign⟩
  · rintro ⟨null, implementation, member, foreign⟩
    right
    refine List.any_eq_true.mpr ⟨implementation.packagePath, ?_, ?_⟩
    · exact List.mem_filter.mpr ⟨List.mem_map_of_mem member, by simpa using foreign⟩
    · rw [(housed implementation member).path]
      exact null

/-- Planning the registry fails in a documented way, or because of the character
zero in an import path. -/
theorem isDocumented_of_planRegistry {implementations : List Implementation} {fault : RunFault}
    (declared : ∀ implementation ∈ implementations, implementation.contract.definitionPath ≠ [])
    (failed : (project.planRegistry disk found implementations).result = .error fault) :
    fault.isDocumented = true ∨
      (∃ module, found = .ok module) ∧
        (Registry.visited project.settings.implementationDirectory implementations).any
          Disk.holdsNull = true := by
  unfold planRegistry at failed
  dsimp only at failed
  split at failed
  · left
    rw [← Except.error.inj failed]
    rfl
  · rename_i module
    split at failed
    · rename_i null
      exact .inr ⟨⟨module, rfl⟩, null⟩
    · left
      split at failed
      · rename_i unwritten
        obtain ⟨rendered, written⟩ := Registry.exists_render_iff.mpr declared
        rw [written] at unwritten
        simp at unwritten
      · rcases Attempt.result_andThen_eq_error_iff.mp failed with formatted | ⟨_, _, later⟩
        · obtain ⟨before, _, rfl⟩ := Attempt.result_mapFault_eq_error_iff.mp formatted
          rfl
        · split at later
          · rw [← Except.error.inj later]
            rfl
          · simp at later

theorem planRegistry_eq_nullCharacter {module : Module} {implementations : List Implementation}
    (known : found = .ok module)
    (null : (Registry.visited project.settings.implementationDirectory implementations).any
      Disk.holdsNull = true) :
    (project.planRegistry disk found implementations).result = .error .nullCharacter := by
  unfold planRegistry
  simp [known, null]

/-- Writing the registry fails in a documented way, unless planning it meets the
character zero or storing it does. -/
theorem isDocumented_of_generateRegistry {progress next : Progress} {fault : RunFault}
    (declared : ∀ implementation ∈ progress.implementations,
      implementation.contract.definitionPath ≠ [])
    (failed : project.generateRegistry found progress = (next, .error fault)) :
    fault.isDocumented = true ∨
      progress.implementations ≠ [] ∧
        ((∃ module, found = .ok module) ∧
            (Registry.visited project.settings.implementationDirectory
              progress.implementations).any Disk.holdsNull = true ∨
          project.settings.isDryRun = false ∧ ∃ merged,
            (project.planRegistry progress.disk found progress.implementations).result =
                .ok merged ∧
              project.store progress.disk merged.path merged.text = .error .nullCharacter) := by
  unfold generateRegistry at failed
  split at failed
  · simp at failed
  · rename_i some
    have something : progress.implementations ≠ [] := by
      simpa [List.isEmpty_iff] using some
    dsimp only at failed
    split at failed
    · rename_i other unplanned
      obtain ⟨_, same⟩ := Prod.mk.inj failed
      rw [Except.error.inj same] at unplanned
      rcases isDocumented_of_planRegistry declared unplanned with documented | met
      · exact .inl documented
      · exact .inr ⟨something, .inl met⟩
    · rename_i merged planned
      split at failed
      · rename_i last other unwritten
        obtain ⟨_, same⟩ := Prod.mk.inj failed
        rw [Except.error.inj same] at unwritten
        rcases isDocumented_of_write unwritten with documented | ⟨_, real, unstored⟩
        · exact .inl documented
        · exact .inr ⟨something, .inr ⟨real, merged, planned, unstored⟩⟩
      · simp at failed

/-- The registry is always a new file where its path holds the character
zero. -/
theorem generateRegistry_eq_nullCharacter {progress : Progress} {merged : Merged}
    (something : progress.implementations ≠ []) (real : project.settings.isDryRun = false)
    (planned : (project.planRegistry progress.disk found progress.implementations).result =
      .ok merged)
    (null : Disk.holdsNull (project.fullPath project.settings.registryPath) = true)
    (unstored : project.store progress.disk merged.path merged.text = .error .nullCharacter) :
    (project.generateRegistry found progress).2 = .error .nullCharacter := by
  obtain ⟨module, _, _, rendered, text, previous?, _, _, read, rfl⟩ :=
    result_planRegistry_eq_ok_iff.mp planned
  have absent : previous? = none := by
    have none : progress.disk.fileAt? (project.fullPath project.settings.registryPath) = none := by
      simp [Disk.fileAt?, Disk.at?, null]
    rw [registryText?, none] at read
    exact (Except.ok.inj read).symm
  have changed : Merged.isChanged ⟨project.settings.registryPath, text, previous?, 0, 0⟩ = true := by
    simp [Merged.isChanged, absent]
  have refused (happenings : List Happening) :
      project.write (progress.report happenings)
          ⟨project.settings.registryPath, text, previous?, 0, 0⟩ =
        (progress.report happenings, .error .nullCharacter) :=
    write_eq_nullCharacter real changed unstored
  unfold generateRegistry
  rw [if_neg (by simpa [List.isEmpty_iff] using something)]
  simp only [planned, refused]

end Project

/-! ## Runs -/

namespace Disk

/-- Nothing is left to make where a directory is there. -/
theorem makeDirectories_of_walk {disk : Disk} {path : Text} {base : Location}
    (clean : holdsNull path = false) (walked : disk.walk [] (Path.components path) = .ok base)
    (directory : disk.entry? base = some .directory) :
    disk.makeDirectories path = .ok disk := by
  have proper : ∀ part ∈ Path.components path, Path.IsComponent part :=
    Path.isComponent_of_mem_components
  rw [holdsNull_eq_any_components] at clean
  unfold Disk.makeDirectories
  rw [holdsNull_eq_any_components, clean, if_neg (by simp)]
  generalize Path.components path = parts at *
  rcases List.eq_nil_or_concat parts with rfl | ⟨parents, last, rfl⟩
  · rfl
  · rw [List.concat_eq_append] at *
    have shown : Path.components (shownComponents (parents ++ [last])) = parents ++ [last] := by
      rw [shownComponents, Path.components_slash_cons, Path.components_join_slash proper]
    have there : disk.isDirectory (shownComponents (parents ++ [last])) = true := by
      have noFile := content?_of_directory directory
      have noNull : holdsNull (shownComponents (parents ++ [last])) = false := by
        rw [holdsNull_eq_any_components, shown, clean]
      simp [isDirectory, at?, locate, noNull, shown, walked, noFile, directory]
    have made : disk.makeOne (parents ++ [last]) = .error .exists := by
      simp [Disk.makeOne, walked, directory]
    rw [List.reverse_append, List.reverse_singleton, List.singleton_append, Disk.makeAll]
    simp only [List.reverse_cons, List.reverse_reverse, made]
    rw [Disk.orPresent, if_pos there]

end Disk

namespace Project

variable {project : Project} {disk : Disk}

/-- The directory of the contracts is there and holds source files, but is not
written as one below the root. -/
def Strays (project : Project) (disk : Disk) : Prop :=
  disk.at? (Path.within project.settings.root project.settings.apiDirectory) = some .directory ∧
    ∃ location,
      disk.locate (Path.within project.settings.root project.settings.apiDirectory) =
          .ok location ∧
        Package.found disk location ≠ [] ∧
        Path.isBelow project.settings.root
          (Path.within project.settings.root project.settings.apiDirectory) = false

/-- A run on the disk uses a path with the character zero for more than looking
what is there. -/
inductive MeetsNull (project : Project) (disk : Disk) : Prop where
  /-- An implementation file is to be written. -/
  | file (cannot : project.CannotWrite) (planned : plannedFiles (project.history disk) ≠ []) :
      MeetsNull project disk
  /-- The registry is to import a package from another directory than its own. -/
  | package {packages middle module}
      (null : Disk.holdsNull project.settings.implementationDirectory = true)
      (crawled : Package.crawl disk project.settings.root project.settings.apiDirectory =
        .ok packages)
      (found : Module.find disk project.current project.settings.root = .ok module)
      (generated : project.GeneratesAll (.ok module) { disk := disk } packages middle)
      (foreign : ∃ implementation ∈ middle.implementations,
        Path.normalize implementation.packagePath ≠
          Path.normalize project.settings.implementationDirectory) :
      MeetsNull project disk
  /-- The registry is to be written. -/
  | registry {packages middle merged} (real : project.settings.isDryRun = false)
      (null : Disk.holdsNull project.settings.registryName = true)
      (crawled : Package.crawl disk project.settings.root project.settings.apiDirectory =
        .ok packages)
      (generated : project.GeneratesAll
        (Module.find disk project.current project.settings.root) { disk := disk } packages middle)
      (something : middle.implementations ≠ [])
      (planned : (project.planRegistry middle.disk
        (Module.find disk project.current project.settings.root) middle.implementations).result =
          .ok merged) :
      MeetsNull project disk

/-- Crawling fails over files outside the root exactly where the contracts
stray. -/
theorem crawl_eq_error_cases {fault : CrawlFault}
    (failed : Package.crawl disk project.settings.root project.settings.apiDirectory =
      .error fault) :
    (RunFault.ofCrawl project.settings.apiDirectory fault).isDocumented = true ∨
      project.Strays disk := by
  unfold Package.crawl at failed
  dsimp only at failed
  split at failed
  · rename_i present
    split at failed
    · rw [← Except.error.inj failed]
      exact .inl rfl
    · rename_i location located
      split at failed
      · simp at failed
      · rename_i first rest files
        split at failed
        · simp at failed
        · rename_i outside
          right
          refine ⟨by simpa [Disk.isDirectory] using present, location, located, ?_, ?_⟩
          · rw [files]
            exact List.cons_ne_nil first rest
          · simpa using outside
  · rw [← Except.error.inj failed]
    exact .inl rfl

theorem Strays.exists_crawl_fault (strays : project.Strays disk) :
    ∃ path root, Package.crawl disk project.settings.root project.settings.apiDirectory =
      .error (.outside path root) := by
  obtain ⟨present, location, located, something, outside⟩ := strays
  obtain ⟨first, rest, files⟩ := List.exists_cons_of_ne_nil something
  have there : disk.isDirectory (Path.within project.settings.root
      project.settings.apiDirectory) = true := by
    simpa [Disk.isDirectory] using present
  unfold Package.crawl
  dsimp only
  rw [if_pos there, located]
  simp only [files, outside]
  exact ⟨_, _, rfl⟩

/-- The shape of what a run has done when it comes to the registry. -/
structure ReachesRegistry (project : Project) (disk : Disk) (packages : List Package)
    (middle : Progress) : Prop where
  surveyed : project.IsSurveyed disk packages
  free : disk.IsNullFree
  generated : project.GeneratesAll
    (Module.find disk project.current project.settings.root) { disk := disk } packages middle

namespace ReachesRegistry

variable {packages : List Package} {middle : Progress}

theorem isIntact (reached : project.ReachesRegistry disk packages middle) : IsIntact disk :=
  ⟨reached.surveyed.fileSystem.names, reached.free⟩

theorem isHoused (reached : project.ReachesRegistry disk packages middle) :
    ∀ implementation ∈ middle.implementations, project.IsHoused implementation := by
  apply reached.generated.isHoused reached.surveyed.valid
    (reached.surveyed.exists_canBeRead reached.free)
  simp

theorem packages_ne_nil (reached : project.ReachesRegistry disk packages middle)
    (something : middle.implementations ≠ []) : packages ≠ [] := by
  rintro rfl
  cases reached.generated
  exact something rfl

theorem holdsNull_fullPath (reached : project.ReachesRegistry disk packages middle)
    (something : middle.implementations ≠ []) (path : Text) :
    Disk.holdsNull (project.fullPath path) = Disk.holdsNull path := by
  obtain ⟨first, rest, rfl⟩ := List.exists_cons_of_ne_nil (reached.packages_ne_nil something)
  obtain ⟨way, readable⟩ :=
    reached.surveyed.exists_canBeRead reached.free first List.mem_cons_self
  exact readable.holdsNull_fullPath path

theorem not_cannotWrite (reached : project.ReachesRegistry disk packages middle)
    (something : middle.implementations ≠ []) : ¬ project.CannotWrite := by
  intro cannot
  have generated := generatePackages_eq_ok_iff.mpr reached.generated
  rcases generatePackages_cases reached.surveyed.valid packages
      (reached.surveyed.exists_canBeRead reached.free) reached.isIntact generated with
    ⟨_, _, impossible⟩ | ⟨nothing, _, _⟩
  · simp at impossible
  · exact something (reached.generated.implementations_eq (nothing cannot))

/-- Storing the registry fails over the character zero exactly if the settings
that make up its path hold it. -/
theorem store_eq_nullCharacter_iff (reached : project.ReachesRegistry disk packages middle)
    (something : middle.implementations ≠ []) (real : project.settings.isDryRun = false)
    {text : Text} :
    project.store middle.disk project.settings.registryPath text = .error .nullCharacter ↔
      Disk.holdsNull project.settings.registryName = true := by
  have parts := components_registryPath reached.surveyed.valid
  have clean : Disk.holdsNull project.settings.implementationDirectory = false :=
    Bool.not_eq_true _ ▸ fun null => reached.not_cannotWrite something ⟨real, null⟩
  have base := reached.holdsNull_fullPath something project.settings.implementationDirectory
  rw [clean, Disk.holdsNull_eq_any_components] at base
  have parent :
      Disk.holdsNull (Path.parent (project.fullPath project.settings.registryPath)) = false := by
    rw [Disk.holdsNull_parent_eq_of_components parts, base]
  have whole : Disk.holdsNull (project.fullPath project.settings.registryPath) =
      Disk.holdsNull project.settings.registryName := by
    rw [Disk.holdsNull_eq_any_components, parts]
    simp [base]
  obtain ⟨last, walked, directory⟩ : project.HasImplementationDirectory middle.disk := by
    have tree := reached.surveyed.fileSystem.tree
    rcases reached.generated.hasImplementationDirectory reached.surveyed.valid real
        (reached.surveyed.exists_canBeRead reached.free) tree reached.isIntact with same | present
    · exact absurd same something
    · exact present
  have inside : Path.components
      (Path.parent (project.fullPath project.settings.registryPath)) =
        Path.components (project.fullPath project.settings.implementationDirectory) := by
    rw [Path.components_parent, parts, List.dropLast_concat]
  have made := Disk.makeDirectories_of_walk parent (inside ▸ walked) directory
  rw [Project.store_eq_nullCharacter_iff, parent, whole, made]
  simp

theorem run_eq_error (reached : project.ReachesRegistry disk packages middle) {fault : RunFault}
    (failed : (project.generateRegistry
      (Module.find disk project.current project.settings.root) middle).2 = .error fault) :
    (project.run disk).2 = .error fault := by
  have generated := generatePackages_eq_ok_iff.mpr reached.generated
  cases registered : project.generateRegistry
      (Module.find disk project.current project.settings.root) middle with
  | mk final outcome =>
      rw [registered] at failed
      simp only at failed
      simp only [run, reached.surveyed.crawled, generated, registered, failed]

end ReachesRegistry

/-- A run that fails in another way than the documented one has met contracts
outside the root, or the character zero. -/
theorem strays_or_meetsNull_of_run (valid : project.IsValid) (fileSystem : disk.IsFileSystem)
    (free : disk.IsNullFree) {fault : RunFault} (failed : (project.run disk).2 = .error fault) :
    fault.isDocumented = true ∨ project.Strays disk ∨ project.MeetsNull disk := by
  unfold run at failed
  dsimp only at failed
  split at failed
  · rename_i crawlFault crawled
    rw [← Except.error.inj failed]
    exact (crawl_eq_error_cases crawled).imp_right .inl
  · rename_i packages crawled
    have surveyed : project.IsSurveyed disk packages := ⟨valid, fileSystem, crawled⟩
    have readable := surveyed.exists_canBeRead free
    have planned : project.history disk =
        project.plannings (Module.find disk project.current project.settings.root)
          { disk := disk } packages := by
      simp [history, crawled]
    split at failed
    · rename_i middle packageFault generated
      rw [← Except.error.inj failed]
      rcases generatePackages_cases valid packages readable
          (show IsIntact disk from ⟨fileSystem.names, free⟩) generated with
        ⟨cannot, something, _⟩ | ⟨_, _, documented⟩
      · exact .inr (.inr (.file cannot (planned ▸ something)))
      · exact .inl (documented _ rfl)
    · rename_i middle generated
      have all := generatePackages_eq_ok_iff.mp generated
      have reached : project.ReachesRegistry disk packages middle := ⟨surveyed, free, all⟩
      split at failed
      · rename_i last registryFault unregistered
        rw [← Except.error.inj failed]
        rcases isDocumented_of_generateRegistry
            (fun implementation member => (reached.isHoused implementation member).declared)
            unregistered with
          documented | ⟨something, ⟨⟨module, known⟩, null⟩ | ⟨real, merged, made, unstored⟩⟩
        · exact .inl documented
        · obtain ⟨null, foreign⟩ := (any_holdsNull_visited something reached.isHoused).mp null
          exact .inr (.inr (.package null crawled known (known ▸ all) foreign))
        · obtain ⟨module, _, _, rendered, text, previous?, _, _, _, rfl⟩ :=
            result_planRegistry_eq_ok_iff.mp made
          have null := (reached.store_eq_nullCharacter_iff something real).mp unstored
          exact .inr (.inr (.registry real null crawled all something made))
      · simp at failed

theorem Strays.exists_fault (strays : project.Strays disk) :
    ∃ fault, (project.run disk).2 = .error fault ∧ fault.isDocumented = false := by
  obtain ⟨path, root, crawled⟩ := strays.exists_crawl_fault
  refine ⟨.outside (.outside path root), ?_, rfl⟩
  simp only [run, crawled]
  rfl

/-- A path with the character zero ends a run in another way than the documented
one. -/
theorem MeetsNull.run_eq (valid : project.IsValid) (fileSystem : disk.IsFileSystem)
    (free : disk.IsNullFree) (meets : project.MeetsNull disk) :
    (project.run disk).2 = .error .nullCharacter := by
  cases meets with
  | file cannot something =>
      cases crawled : Package.crawl disk project.settings.root project.settings.apiDirectory with
      | error fault => simp [history, crawled, plannedFiles] at something
      | ok packages =>
          have surveyed : project.IsSurveyed disk packages := ⟨valid, fileSystem, crawled⟩
          simp only [history, crawled] at something
          simp only [run, crawled]
          cases generated : project.generatePackages
              (Module.find disk project.current project.settings.root) { disk := disk }
              packages with
          | mk middle outcome =>
              rcases generatePackages_cases valid packages (surveyed.exists_canBeRead free)
                  (show IsIntact disk from ⟨fileSystem.names, free⟩) generated with
                ⟨_, _, rfl⟩ | ⟨nothing, _, _⟩
              · rfl
              · exact absurd (nothing cannot) something
  | @package packages middle module null crawled found generated foreign =>
      have surveyed : project.IsSurveyed disk packages := ⟨valid, fileSystem, crawled⟩
      have reached : project.ReachesRegistry disk packages middle :=
        ⟨surveyed, free, found ▸ generated⟩
      have something : middle.implementations ≠ [] := by
        obtain ⟨implementation, member, _⟩ := foreign
        exact List.ne_nil_of_mem member
      have visited := (any_holdsNull_visited something reached.isHoused).mpr ⟨null, foreign⟩
      have unplanned : (project.planRegistry middle.disk
          (Module.find disk project.current project.settings.root) middle.implementations).result =
            .error .nullCharacter :=
        planRegistry_eq_nullCharacter found visited
      apply reached.run_eq_error
      unfold generateRegistry
      rw [if_neg (by simpa [List.isEmpty_iff] using something)]
      simp only [unplanned]
  | @registry packages middle merged real null crawled generated something planned =>
      have surveyed : project.IsSurveyed disk packages := ⟨valid, fileSystem, crawled⟩
      have reached : project.ReachesRegistry disk packages middle := ⟨surveyed, free, generated⟩
      have path : merged.path = project.settings.registryPath := by
        obtain ⟨module, _, _, rendered, text, previous?, _, _, _, rfl⟩ :=
          result_planRegistry_eq_ok_iff.mp planned
        rfl
      have unstored : project.store middle.disk merged.path merged.text =
          .error .nullCharacter := by
        rw [path]
        exact (reached.store_eq_nullCharacter_iff something real).mpr null
      apply reached.run_eq_error
      apply generateRegistry_eq_nullCharacter something real planned _ unstored
      rw [Disk.holdsNull_eq_any_components, components_registryPath valid]
      simp [null]

/-- A run fails in the documented way exactly where neither the contracts are
found outside the root nor a path with the character zero is to be used. -/
theorem isDocumented_of_run_iff {current : Text} {toolbox : Toolbox} {settings : Settings}
    (valid : Settings.validate settings.toValue = .ok ())
    (made : setUp current toolbox settings = .ok project) (fileSystem : disk.IsFileSystem)
    (free : disk.IsNullFree) :
    (∀ fault, (project.run disk).2 = .error fault → fault.isDocumented = true) ↔
      ¬ project.Strays disk ∧ ¬ project.MeetsNull disk := by
  have isValid := isValid_of_setUp valid made
  constructor
  · intro documented
    constructor
    · intro strays
      obtain ⟨fault, failed, other⟩ := strays.exists_fault
      rw [documented fault failed] at other
      exact Bool.noConfusion other
    · intro meets
      have other := documented _ (meets.run_eq isValid fileSystem free)
      exact Bool.noConfusion other
  · rintro ⟨inside, clean⟩ fault failed
    rcases strays_or_meetsNull_of_run isValid fileSystem free failed with
      documented | strays | meets
    · exact documented
    · exact absurd strays inside
    · exact absurd meets clean

/-! ## A file that cannot be read, and a setting that no path may hold -/

/-- A fault of some kind. -/
def failsWith (good : RunFault → Bool) : Except RunFault Report → Bool
  | .error fault => good fault
  | .ok _ => false

theorem exists_fault_of_failsWith {good : RunFault → Bool} {result : Except RunFault Report}
    (failed : failsWith good result = true) :
    ∃ fault, result = .error fault ∧ good fault = true := by
  cases result with
  | error fault => exact ⟨fault, rfl, failed⟩
  | ok report => exact Bool.noConfusion failed

/-- A file with a syntax error ends the run in the documented way, so the run has
met nothing else. -/
theorem isDocumented_of_run_brokenDisk :
    Settings.validate (plainSettings "r.go").toValue = .ok () ∧
      setUp "/p" plainProject.toolbox (plainSettings "r.go") = .ok plainProject ∧
      brokenDisk.IsFileSystem ∧ brokenDisk.IsNullFree ∧
      (∃ fault, (plainProject.run brokenDisk).2 = .error fault) ∧
      ¬ plainProject.Strays brokenDisk ∧ ¬ plainProject.MeetsNull brokenDisk := by
  have valid : Settings.validate (plainSettings "r.go").toValue = .ok () := by decide +kernel
  have made : setUp "/p" plainProject.toolbox (plainSettings "r.go") = .ok plainProject := by
    rfl
  have free : brokenDisk.IsNullFree := by decide +kernel
  have failed : failsWith RunFault.isDocumented (plainProject.run brokenDisk).2 = true := by
    decide +kernel
  obtain ⟨fault, result, documented⟩ := exists_fault_of_failsWith failed
  refine ⟨valid, made, isFileSystem_brokenDisk, free, ⟨fault, result⟩,
    (isDocumented_of_run_iff valid made isFileSystem_brokenDisk free).mp ?_⟩
  intro other same
  rw [← Except.error.inj (result.symm.trans same)]
  exact documented

/-- Settings with the character zero in the implementation directory. -/
def nullSettings : Settings :=
  { plainSettings "r.go" with implementationDirectory := .text "i\x00" }

/-- A project that cannot write to its implementation directory. -/
def nullProject : Project where
  settings := { plainProject.settings with implementationDirectory := "i\x00" }
  current := plainProject.current
  toolbox := plainProject.toolbox
  formatter := plainProject.formatter

/-- The settings are valid, and still the run ends with a fault of another kind
than the documented one. -/
theorem not_isDocumented_nullProject :
    Settings.validate nullSettings.toValue = .ok () ∧
      setUp "/p" nullProject.toolbox nullSettings = .ok nullProject ∧
      loneDisk.IsFileSystem ∧ loneDisk.IsNullFree ∧
      ∃ fault, (nullProject.run loneDisk).2 = .error fault ∧ fault.isDocumented = false := by
  have failed : failsWith (fun fault => !fault.isDocumented) (nullProject.run loneDisk).2 =
      true := by
    decide +kernel
  obtain ⟨fault, result, other⟩ := exists_fault_of_failsWith failed
  exact ⟨by decide +kernel, by rfl, isFileSystem_loneDisk, by decide +kernel, fault, result,
    by simpa using other⟩

end Project

end Scaffold
