import Scaffold.Proofs.Project.Frame

/-!
# What a report says about the disk

A run reports what became of each planned file and of the registry.  The files
it reads byte by byte, but the registry with universal newlines, and the registry
may have the path of a planned file.  The report is true exactly if this makes no
difference.
-/

namespace Scaffold

/-! ## What is reported as changed -/

theorem Merged.filter_outcome (files : List Merged) :
    (files.map Merged.outcome).filter (fun outcome => outcome.status != .unchanged) =
      (files.filter Merged.isChanged).map Merged.outcome := by
  rw [List.filter_map]
  congr 1
  apply List.filter_congr
  intro merged _
  have same := Merged.status_eq_unchanged_iff merged
  cases changed : merged.isChanged with
  | false => simpa [Merged.outcome] using same.mpr changed
  | true =>
      have different : merged.status ≠ .unchanged := by
        intro unchanged
        simp [same.mp unchanged] at changed
      simpa [Merged.outcome] using different

namespace Project

/-- A text that is rendered and formatted as the registry of implementations. -/
def IsRegistryText (project : Project) (disk : Disk) (implementations : List Implementation)
    (text : Text) : Prop :=
  ∃ module rendered,
    Module.find disk project.current project.settings.root = .ok module ∧
      Registry.render ⟨project.settings.root, module⟩ project.current
          project.settings.implementationDirectory none implementations = .ok rendered ∧
      (project.format project.settings.registryPath rendered).result = .ok text

/-- The report of a run tells the truth: every planned file is reported and has
its text, the registry has the text that was rendered for it, and exactly the
files with other bytes than before are reported as changed, each of them once. -/
structure IsTruthful (project : Project) (before : Disk) (final : Progress) (report : Report) :
    Prop where
  reported : report.files = (plannedFiles (project.history before)).map Merged.outcome
  held : ∀ merged ∈ plannedFiles (project.history before),
    final.disk.fileAt? (project.fullPath merged.path) = some (Utf8.encode merged.text)
  registry : final.implementations ≠ [] → ∀ text,
    project.IsRegistryText before final.implementations text →
      final.disk.fileAt? (project.fullPath project.settings.registryPath) =
        some (Utf8.encode text)
  changed : ∀ location, final.disk.content? location ≠ before.content? location ↔
    ∃ outcome ∈ report.changed, location = project.location outcome.path
  once : (report.changed.map Outcome.path).Nodup

/-- The registry is told apart from what was there: no planned file has its path
and the text before reads like the new one only if it is the new one, or a
planned file has its path and just its text, without carriage returns. -/
def RegistryIsTold (project : Project) (disk : Disk) (implementations : List Implementation) :
    Prop :=
  implementations ≠ [] → ∀ text, project.IsRegistryText disk implementations text →
    ((∀ merged ∈ plannedFiles (project.history disk),
        merged.path ≠ project.settings.registryPath) ∧
      ∀ previous,
        disk.fileAt? (project.fullPath project.settings.registryPath) =
            some (Utf8.encode previous) →
          (Text.universalNewlines previous = text ↔ previous = text)) ∨
    ∃ merged ∈ plannedFiles (project.history disk),
      merged.path = project.settings.registryPath ∧ merged.text = text ∧
        Text.universalNewlines text = text

variable {project : Project} {disk : Disk} {packages : List Package}

/-! ## Planned files on the disk -/

/-- All planned files are on a later disk, and only they have changed. -/
structure HoldsPlanned (project : Project) (disk middle : Disk) : Prop where
  grown : disk.GrowsTo middle
  held : ∀ merged ∈ plannedFiles (project.history disk),
    middle.fileAt? (project.fullPath merged.path) = some (Utf8.encode merged.text)
  changed : ∀ location, middle.content? location ≠ disk.content? location ↔
    ∃ merged ∈ plannedFiles (project.history disk),
      merged.isChanged = true ∧ location = project.location merged.path

theorem IsSurveyed.planned (real : project.settings.isDryRun = false)
    (surveyed : project.IsSurveyed disk packages) {merged : Merged}
    (member : merged ∈ plannedFiles (project.history disk)) :
    ∃ directory, project.IsPlannedIn disk directory merged := by
  obtain ⟨planning, listed, inside⟩ := List.mem_flatMap.mp member
  obtain ⟨_, way, _, files⟩ := (surveyed.history real).1 planning listed
  exact ⟨_, files merged inside⟩

/-- Planned files at the same location are the same. -/
theorem IsSurveyed.eq_of_location (real : project.settings.isDryRun = false)
    (surveyed : project.IsSurveyed disk packages) {left right : Merged}
    (leftPlanned : left ∈ plannedFiles (project.history disk))
    (rightPlanned : right ∈ plannedFiles (project.history disk))
    (same : project.location left.path = project.location right.path) : left = right :=
  List.inj_on_of_nodup_map (surveyed.history real).2 leftPlanned rightPlanned same

/-- Storing what changed in the planned files puts all of them on the disk. -/
theorem IsSurveyed.holdsPlanned (real : project.settings.isDryRun = false)
    (surveyed : project.IsSurveyed disk packages) {middle : Disk}
    (stores : project.Stores disk (changedFiles (project.history disk)) middle) :
    project.HoldsPlanned disk middle := by
  obtain ⟨grown, agrees, possible, contents⟩ :=
    surveyed.spec_of_stores real stores (changedFiles_sublist _)
  refine ⟨grown, ?_, ?_⟩
  · intro merged member
    obtain ⟨directory, planned⟩ := surveyed.planned real member
    rw [(planned.reaches.of_growsTo grown).fileAt?_eq_some_iff grown.tree]
    cases changed : merged.isChanged with
    | true =>
        have listed : merged ∈ changedFiles (project.history disk) :=
          List.mem_filter.mpr ⟨member, changed⟩
        exact ⟨possible merged listed, contents merged listed⟩
    | false =>
        have present := planned.unchanged.mp changed
        rw [planned.reaches.fileAt?_eq_some_iff surveyed.fileSystem.tree] at present
        refine ⟨present.1, ?_⟩
        rw [agrees.contents, present.2]
        rintro ⟨other, listed, same⟩
        obtain ⟨otherPlanned, otherChanged⟩ := List.mem_filter.mp listed
        have equal := surveyed.eq_of_location real member otherPlanned same
        rw [← equal, changed] at otherChanged
        simp at otherChanged
  · intro location
    constructor
    · intro different
      by_contra untouched
      apply different
      apply agrees.contents
      rintro ⟨merged, listed, same⟩
      obtain ⟨planned, changed⟩ := List.mem_filter.mp listed
      exact untouched ⟨merged, planned, changed, same⟩
    · rintro ⟨merged, member, changed, rfl⟩ same
      have listed : merged ∈ changedFiles (project.history disk) :=
        List.mem_filter.mpr ⟨member, changed⟩
      obtain ⟨directory, planned⟩ := surveyed.planned real member
      have before : disk.fileAt? (project.fullPath merged.path) =
          some (Utf8.encode merged.text) := by
        rw [planned.reaches.fileAt?_eq_some_iff surveyed.fileSystem.tree]
        exact ⟨possible merged listed, same ▸ contents merged listed⟩
      rw [planned.unchanged.mpr before] at changed
      simp at changed

/-! ## The registry beside them -/

/-- The registry as it is written to a disk that holds the planned files. -/
structure IsWritten (project : Project) (middle : Disk) (registry : Merged) (after : Disk) :
    Prop where
  path : registry.path = project.settings.registryPath
  previous : project.registryText? middle project.settings.registryPath = .ok registry.previous?
  kept : registry.isChanged = false → after = middle
  stored : registry.isChanged = true →
    Disk.mayBeFile (project.fullPath registry.path) = true ∧
      after.content? (project.location registry.path) = some (Utf8.encode registry.text)
  grown : middle.GrowsTo after
  others : ∀ location, location ≠ project.location registry.path →
    after.content? location = middle.content? location

/-- The planned files and the registry are on the disk with their texts, and
exactly those that changed are reported, each of them once. -/
structure AreTold (project : Project) (before after : Disk) (files : List Merged) : Prop where
  held : ∀ merged ∈ files,
    after.fileAt? (project.fullPath merged.path) = some (Utf8.encode merged.text)
  changed : ∀ location, after.content? location ≠ before.content? location ↔
    ∃ merged ∈ files, merged.isChanged = true ∧ location = project.location merged.path
  once : ((files.filter Merged.isChanged).map Merged.path).Nodup

theorem IsSurveyed.nodup_path (real : project.settings.isDryRun = false)
    (surveyed : project.IsSurveyed disk packages) :
    ((plannedFiles (project.history disk)).map Merged.path).Nodup := by
  have distinct := (surveyed.history real).2
  have composed : ((plannedFiles (project.history disk)).map fun merged =>
      project.location merged.path) =
        ((plannedFiles (project.history disk)).map Merged.path).map project.location := by
    rw [List.map_map]
    rfl
  rw [composed] at distinct
  exact distinct.of_map

theorem IsSurveyed.areTold_of_holdsPlanned (real : project.settings.isDryRun = false)
    (surveyed : project.IsSurveyed disk packages) {middle : Disk}
    (holds : project.HoldsPlanned disk middle) :
    project.AreTold disk middle (plannedFiles (project.history disk)) :=
  ⟨holds.held, holds.changed,
    (surveyed.nodup_path real).sublist (List.filter_sublist.map Merged.path)⟩

theorem IsWritten.exists_previous {middle after : Disk} {registry : Merged}
    (written : project.IsWritten middle registry after) (same : registry.isChanged = false) :
    ∃ text, middle.fileAt? (project.fullPath project.settings.registryPath) =
        some (Utf8.encode text) ∧ Text.universalNewlines text = registry.text := by
  have previous := written.previous
  rw [Merged.isChanged, bne_eq_false_iff_eq] at same
  rw [same] at previous
  obtain ⟨content, text, present, decoded, equal⟩ := registryText?_eq_some_iff.mp previous
  exact ⟨text, by rw [present, Utf8.encode_of_decode decoded], equal⟩

/-- What is read of the registry before it is written. -/
theorem IsWritten.isChanged_eq_false_iff {middle after : Disk} {registry : Merged}
    (written : project.IsWritten middle registry after) {text : Text}
    (present : middle.fileAt? (project.fullPath project.settings.registryPath) =
      some (Utf8.encode text)) :
    registry.isChanged = false ↔ Text.universalNewlines text = registry.text := by
  have previous := written.previous
  rw [registryText?, present] at previous
  simp only [Utf8.decode_encode, Except.ok.injEq] at previous
  rw [Merged.isChanged, bne_eq_false_iff_eq, ← previous, Option.some.injEq]

theorem IsSurveyed.fileAt?_registry_iff (surveyed : project.IsSurveyed disk packages)
    (something : packages ≠ []) {later : Disk} (grown : disk.GrowsTo later) {content : Bytes} :
    later.fileAt? (project.fullPath project.settings.registryPath) = some content ↔
      Disk.mayBeFile (project.fullPath project.settings.registryPath) = true ∧
        later.content? (project.location project.settings.registryPath) = some content :=
  ((surveyed.reaches_registryPath something).1.of_growsTo grown).fileAt?_eq_some_iff grown.tree

/-! ### A path of its own -/

/-- No planned file has the path of the registry. -/
def IsAlone (project : Project) (disk : Disk) : Prop :=
  ∀ merged ∈ plannedFiles (project.history disk), merged.path ≠ project.settings.registryPath

/-- What stands at the path of the registry reads like a text only if it is this
text. -/
def ReadsOnlyAs (project : Project) (disk : Disk) (text : Text) : Prop :=
  ∀ previous,
    disk.fileAt? (project.fullPath project.settings.registryPath) = some (Utf8.encode previous) →
      (Text.universalNewlines previous = text ↔ previous = text)

theorem IsSurveyed.location_ne_of_isAlone (real : project.settings.isDryRun = false)
    (surveyed : project.IsSurveyed disk packages) (something : packages ≠ [])
    (alone : project.IsAlone disk) {merged : Merged}
    (member : merged ∈ plannedFiles (project.history disk)) :
    project.location merged.path ≠ project.location project.settings.registryPath := by
  intro same
  obtain ⟨directory, planned⟩ := surveyed.planned real member
  exact alone merged member
    (planned.top _ (same.trans (surveyed.reaches_registryPath something).2))

/-- Storing the planned files leaves a registry alone that has a path of its
own. -/
theorem IsSurveyed.content?_registry_eq (real : project.settings.isDryRun = false)
    (surveyed : project.IsSurveyed disk packages) (something : packages ≠ []) {middle : Disk}
    (holds : project.HoldsPlanned disk middle) (alone : project.IsAlone disk) :
    middle.content? (project.location project.settings.registryPath) =
      disk.content? (project.location project.settings.registryPath) := by
  by_contra different
  obtain ⟨merged, member, _, same⟩ := (holds.changed _).mp different
  exact surveyed.location_ne_of_isAlone real something alone member same.symm

theorem IsSurveyed.fileAt?_registry_eq (real : project.settings.isDryRun = false)
    (surveyed : project.IsSurveyed disk packages) (something : packages ≠ []) {middle : Disk}
    (holds : project.HoldsPlanned disk middle) (alone : project.IsAlone disk) :
    middle.fileAt? (project.fullPath project.settings.registryPath) =
      disk.fileAt? (project.fullPath project.settings.registryPath) := by
  apply Option.ext
  intro content
  rw [surveyed.fileAt?_registry_iff something holds.grown,
    surveyed.fileAt?_registry_iff something (.refl surveyed.fileSystem.tree),
    surveyed.content?_registry_eq real something holds alone]

/-- A registry that is told was not taken for another text. -/
theorem IsSurveyed.readsOnlyAs_of_areTold (real : project.settings.isDryRun = false)
    (surveyed : project.IsSurveyed disk packages) (something : packages ≠ []) {middle after : Disk}
    (holds : project.HoldsPlanned disk middle) {registry : Merged}
    (written : project.IsWritten middle registry after) (alone : project.IsAlone disk)
    (told : project.AreTold disk after (plannedFiles (project.history disk) ++ [registry])) :
    project.ReadsOnlyAs disk registry.text := by
  intro previous present
  have before := surveyed.fileAt?_registry_eq real something holds alone
  have unchanged := written.isChanged_eq_false_iff (before.trans present)
  constructor
  · intro same
    have held := told.held registry (by simp)
    rw [written.kept (unchanged.mpr same), written.path, before, present, Option.some.injEq]
      at held
    exact Utf8.encode_injective held
  · intro same
    rw [← unchanged]
    by_contra changed
    rw [Bool.not_eq_false] at changed
    apply (told.changed (project.location registry.path)).mpr ⟨registry, by simp, changed, rfl⟩
    rw [(written.stored changed).2, written.path, ← same]
    exact (((surveyed.fileAt?_registry_iff something
      (.refl surveyed.fileSystem.tree)).mp present).2).symm

/-- The planned files keep their texts when the registry is written. -/
theorem IsSurveyed.fileAt?_planned (real : project.settings.isDryRun = false)
    (surveyed : project.IsSurveyed disk packages) (something : packages ≠ []) {middle after : Disk}
    (holds : project.HoldsPlanned disk middle) {registry : Merged}
    (written : project.IsWritten middle registry after) (alone : project.IsAlone disk)
    {merged : Merged} (member : merged ∈ plannedFiles (project.history disk)) :
    after.fileAt? (project.fullPath merged.path) = some (Utf8.encode merged.text) := by
  obtain ⟨directory, planned⟩ := surveyed.planned real member
  have reaches := planned.reaches.of_growsTo holds.grown
  have present := holds.held merged member
  have elsewhere := surveyed.location_ne_of_isAlone real something alone member
  rw [reaches.fileAt?_eq_some_iff holds.grown.tree] at present
  rw [(reaches.of_growsTo written.grown).fileAt?_eq_some_iff written.grown.tree,
    written.others _ (written.path ▸ elsewhere)]
  exact present

/-- The registry has its new text, whether it is written or was read as it. -/
theorem IsSurveyed.fileAt?_registry_of_readsOnlyAs (real : project.settings.isDryRun = false)
    (surveyed : project.IsSurveyed disk packages) (something : packages ≠ []) {middle after : Disk}
    (holds : project.HoldsPlanned disk middle) {registry : Merged}
    (written : project.IsWritten middle registry after) (alone : project.IsAlone disk)
    (alike : project.ReadsOnlyAs disk registry.text) :
    after.fileAt? (project.fullPath registry.path) = some (Utf8.encode registry.text) := by
  cases changed : registry.isChanged with
  | true =>
      obtain ⟨possible, content⟩ := written.stored changed
      rw [written.path] at possible content ⊢
      exact (surveyed.fileAt?_registry_iff something
        (holds.grown.trans written.grown)).mpr ⟨possible, content⟩
  | false =>
      obtain ⟨text, present, same⟩ := written.exists_previous changed
      have before := surveyed.fileAt?_registry_eq real something holds alone
      rw [written.kept changed, written.path, present,
        ← (alike text (before.symm.trans present)).mp same]

/-- The registry is reported as changed exactly if it has other bytes than
before. -/
theorem IsSurveyed.isChanged_registry_iff (real : project.settings.isDryRun = false)
    (surveyed : project.IsSurveyed disk packages) (something : packages ≠ []) {middle after : Disk}
    (holds : project.HoldsPlanned disk middle) {registry : Merged}
    (written : project.IsWritten middle registry after) (alone : project.IsAlone disk)
    (alike : project.ReadsOnlyAs disk registry.text) :
    after.content? (project.location registry.path) ≠
        disk.content? (project.location registry.path) ↔ registry.isChanged = true := by
  rw [written.path]
  cases changed : registry.isChanged with
  | true =>
      refine iff_of_true (fun same => ?_) rfl
      obtain ⟨possible, content⟩ := written.stored changed
      rw [written.path] at possible content
      have present := (surveyed.fileAt?_registry_iff something
        (.refl surveyed.fileSystem.tree)).mpr ⟨possible, same.symm.trans content⟩
      have before := surveyed.fileAt?_registry_eq real something holds alone
      have unchanged := (written.isChanged_eq_false_iff (before.trans present)).mpr
        ((alike registry.text present).mpr rfl)
      simp [changed] at unchanged
  | false =>
      rw [written.kept changed, surveyed.content?_registry_eq real something holds alone]
      simp

/-- The files with other bytes than before are the planned files and the registry
that are changed. -/
theorem IsSurveyed.changed_iff_of_readsOnlyAs (real : project.settings.isDryRun = false)
    (surveyed : project.IsSurveyed disk packages) (something : packages ≠ []) {middle after : Disk}
    (holds : project.HoldsPlanned disk middle) {registry : Merged}
    (written : project.IsWritten middle registry after) (alone : project.IsAlone disk)
    (alike : project.ReadsOnlyAs disk registry.text) (location : Location) :
    after.content? location ≠ disk.content? location ↔
      ∃ merged ∈ plannedFiles (project.history disk) ++ [registry],
        merged.isChanged = true ∧ location = project.location merged.path := by
  by_cases own : location = project.location registry.path
  · rw [own, surveyed.isChanged_registry_iff real something holds written alone alike]
    constructor
    · intro changed
      exact ⟨registry, by simp, changed, rfl⟩
    · rintro ⟨merged, member, changed, same⟩
      cases List.mem_append.mp member with
      | inl file =>
          rw [written.path] at same
          exact absurd same.symm (surveyed.location_ne_of_isAlone real something alone file)
      | inr last => exact List.mem_singleton.mp last ▸ changed
  · rw [written.others location own, holds.changed]
    constructor
    · rintro ⟨merged, member, rest⟩
      exact ⟨merged, List.mem_append_left _ member, rest⟩
    · rintro ⟨merged, member, changed, same⟩
      cases List.mem_append.mp member with
      | inl file => exact ⟨merged, file, changed, same⟩
      | inr last => exact absurd (List.mem_singleton.mp last ▸ same) own

/-- A registry at a path of its own is told exactly if its text before reads like
the new one only if it is the new one. -/
theorem IsSurveyed.areTold_iff_of_isAlone (real : project.settings.isDryRun = false)
    (surveyed : project.IsSurveyed disk packages) (something : packages ≠ []) {middle after : Disk}
    (holds : project.HoldsPlanned disk middle) {registry : Merged}
    (written : project.IsWritten middle registry after) (alone : project.IsAlone disk) :
    project.AreTold disk after (plannedFiles (project.history disk) ++ [registry]) ↔
      project.ReadsOnlyAs disk registry.text := by
  refine ⟨surveyed.readsOnlyAs_of_areTold real something holds written alone, fun alike => ?_⟩
  refine ⟨?_, surveyed.changed_iff_of_readsOnlyAs real something holds written alone alike, ?_⟩
  · intro merged member
    cases List.mem_append.mp member with
    | inl file => exact surveyed.fileAt?_planned real something holds written alone file
    | inr own =>
        rw [List.mem_singleton.mp own]
        exact surveyed.fileAt?_registry_of_readsOnlyAs real something holds written alone alike
  · rw [List.filter_append, List.map_append, List.nodup_append]
    refine ⟨(surveyed.nodup_path real).sublist (List.filter_sublist.map Merged.path), ?_, ?_⟩
    · cases changed : registry.isChanged <;> simp [changed]
    · intro left leftMember right rightMember same
      obtain ⟨merged, file, rfl⟩ := List.mem_map.mp leftMember
      obtain ⟨other, last, rfl⟩ := List.mem_map.mp rightMember
      rw [List.mem_singleton.mp (List.mem_filter.mp last).1, written.path] at same
      exact alone merged (List.mem_filter.mp file).1 same

/-! ### A path that is shared -/

/-- A registry at the path of a planned file is told exactly if it has the text
of that file, without carriage returns. -/
theorem IsSurveyed.areTold_iff_of_shared (real : project.settings.isDryRun = false)
    (surveyed : project.IsSurveyed disk packages) {middle after : Disk}
    (holds : project.HoldsPlanned disk middle) {registry : Merged}
    (written : project.IsWritten middle registry after) {merged : Merged}
    (member : merged ∈ plannedFiles (project.history disk))
    (path : merged.path = project.settings.registryPath) :
    project.AreTold disk after (plannedFiles (project.history disk) ++ [registry]) ↔
      merged.text = registry.text ∧ Text.universalNewlines registry.text = registry.text := by
  have present := holds.held merged member
  rw [path] at present
  have unchanged := written.isChanged_eq_false_iff present
  constructor
  · intro told
    have own := told.held merged (List.mem_append_left _ member)
    have other := told.held registry (by simp)
    rw [path, ← written.path, other, Option.some.injEq] at own
    have same : registry.text = merged.text := Utf8.encode_injective own
    refine ⟨same.symm, ?_⟩
    rw [← same] at unchanged
    rw [← unchanged]
    by_contra changed
    rw [Bool.not_eq_false] at changed
    -- The registry is reported once only, so the file was there before the run.
    have once := told.once
    rw [List.filter_append, List.map_append, List.nodup_append] at once
    cases fileChanged : merged.isChanged with
    | true =>
        apply once.2.2 merged.path _ registry.path _ (path.trans written.path.symm)
        · exact List.mem_map_of_mem (List.mem_filter.mpr ⟨member, fileChanged⟩)
        · simp [changed]
    | false =>
        obtain ⟨directory, planned⟩ := surveyed.planned real member
        have before := planned.unchanged.mp fileChanged
        rw [planned.reaches.fileAt?_eq_some_iff surveyed.fileSystem.tree] at before
        apply (told.changed (project.location registry.path)).mpr
          ⟨registry, by simp, changed, rfl⟩
        rw [(written.stored changed).2, same, written.path, ← path, before.2]
  · rintro ⟨same, plain⟩
    have kept := unchanged.mpr (by rw [same, plain])
    obtain ⟨held, changed, once⟩ := surveyed.areTold_of_holdsPlanned real holds
    rw [written.kept kept]
    refine ⟨?_, ?_, ?_⟩
    · intro other listed
      cases List.mem_append.mp listed with
      | inl file => exact held other file
      | inr last =>
          rw [List.mem_singleton.mp last, written.path, present, same]
    · intro location
      rw [changed]
      simp only [List.mem_append, List.mem_singleton]
      constructor
      · rintro ⟨other, file, rest⟩
        exact ⟨other, .inl file, rest⟩
      · rintro ⟨other, file | rfl, otherChanged, rest⟩
        · exact ⟨other, file, otherChanged, rest⟩
        · simp [kept] at otherChanged
    · simpa [kept] using once

/-! ## The truth of a report -/

/-- A report is true exactly if the planned files and the registry are told. -/
theorem isTruthful_iff_areTold {final : Progress} {report : Report} {registries : List Merged}
    (reported : report.files = (plannedFiles (project.history disk)).map Merged.outcome)
    (registered : report.registry?.toList = registries.map Merged.outcome)
    (paths : ∀ registry ∈ registries, registry.path = project.settings.registryPath)
    (texts : ∀ text,
      (final.implementations ≠ [] ∧
        project.IsRegistryText disk final.implementations text) ↔
          ∃ registry ∈ registries, registry.text = text) :
    project.IsTruthful disk final report ↔
      project.AreTold disk final.disk (plannedFiles (project.history disk) ++ registries) := by
  have told : report.changed =
      ((plannedFiles (project.history disk) ++ registries).filter Merged.isChanged).map
        Merged.outcome := by
    rw [Report.changed, reported, registered, ← List.map_append, Merged.filter_outcome]
  have changed (location : Location) :
      (∃ outcome ∈ report.changed, location = project.location outcome.path) ↔
        ∃ merged ∈ plannedFiles (project.history disk) ++ registries,
          merged.isChanged = true ∧ location = project.location merged.path := by
    rw [told]
    constructor
    · rintro ⟨outcome, member, same⟩
      obtain ⟨merged, listed, rfl⟩ := List.mem_map.mp member
      obtain ⟨inside, isChanged⟩ := List.mem_filter.mp listed
      exact ⟨merged, inside, isChanged, same⟩
    · rintro ⟨merged, inside, isChanged, same⟩
      exact ⟨merged.outcome, List.mem_map_of_mem (List.mem_filter.mpr ⟨inside, isChanged⟩), same⟩
  have once : (report.changed.map Outcome.path) =
      ((plannedFiles (project.history disk) ++ registries).filter Merged.isChanged).map
        Merged.path := by
    rw [told, List.map_map]
    rfl
  constructor
  · intro truthful
    refine ⟨?_, ?_, once ▸ truthful.once⟩
    · intro merged member
      cases List.mem_append.mp member with
      | inl file => exact truthful.held merged file
      | inr own =>
          obtain ⟨something, isText⟩ := (texts merged.text).mpr ⟨merged, own, rfl⟩
          rw [paths merged own]
          exact truthful.registry something merged.text isText
    · intro location
      rw [truthful.changed, changed]
  · intro told
    refine ⟨reported, ?_, ?_, ?_, once ▸ told.once⟩
    · intro merged member
      exact told.held merged (List.mem_append_left _ member)
    · intro something text isText
      obtain ⟨registry, member, rfl⟩ := (texts text).mp ⟨something, isText⟩
      rw [← paths registry member]
      exact told.held registry (List.mem_append_right _ member)
    · intro location
      rw [told.changed, changed]

/-- How a real run writes the registry. -/
theorem IsSurveyed.isWritten (real : project.settings.isDryRun = false)
    (surveyed : project.IsSurveyed disk packages) (something : packages ≠ [])
    {found : Except ModuleFault Module} {middle progress final : Progress}
    (grown : disk.GrowsTo middle.disk) {registry : Merged}
    (planned : (project.planRegistry middle.disk found middle.implementations).result =
      .ok registry)
    (written : project.Writes progress registry final) (same : progress.disk = middle.disk) :
    project.IsWritten middle.disk registry final.disk := by
  obtain ⟨module, _, _, rendered, text, previous?, _, _, read, rfl⟩ :=
    result_planRegistry_eq_ok_iff.mp planned
  cases written with
  | unchanged unchanged =>
      rw [same]
      exact ⟨rfl, read, fun _ => rfl, fun changed => absurd (changed.symm.trans unchanged) (by simp),
        .refl grown.tree, fun _ _ => rfl⟩
  | announced _ dry => exact absurd (dry.symm.trans real) (by simp)
  | stored changed _ stored =>
      rw [same] at stored
      obtain ⟨possible, content, agrees⟩ := surveyed.spec_of_registry something grown stored
      have source := Path.endsWith_join (Bool.and_eq_true_iff.mp surveyed.valid.registry).1
        project.settings.implementationDirectory
      refine ⟨rfl, read, ?_, fun _ => ⟨possible, content⟩,
        growsTo_of_store grown.tree source stored, agrees.contents⟩
      intro unchanged
      exact absurd (changed.symm.trans unchanged) (by simp)

theorem isRegistryText_iff_of_planned {middle : Disk} {implementations : List Implementation}
    {registry : Merged}
    (planned : (project.planRegistry middle
      (Module.find disk project.current project.settings.root) implementations).result =
        .ok registry) (text : Text) :
    project.IsRegistryText disk implementations text ↔ registry.text = text := by
  obtain ⟨module, known, _, rendered, formatted, previous?, result, format, _, rfl⟩ :=
    result_planRegistry_eq_ok_iff.mp planned
  constructor
  · rintro ⟨otherModule, otherRendered, otherKnown, otherResult, otherFormat⟩
    rw [known, Except.ok.injEq] at otherKnown
    subst otherKnown
    rw [result, Except.ok.injEq] at otherResult
    subst otherResult
    rw [format, Except.ok.injEq] at otherFormat
    exact otherFormat
  · rintro rfl
    exact ⟨module, rendered, known, result, format⟩

/-- The report of a successful run is true exactly if the registry is told apart
from what was there. -/
theorem isTruthful_iff_of_run {current : Text} {toolbox : Toolbox} {settings : Settings}
    (valid : Settings.validate settings.toValue = .ok ())
    (made : setUp current toolbox settings = .ok project)
    (real : project.settings.isDryRun = false) (fileSystem : disk.IsFileSystem)
    {final : Progress} {report : Report} (ran : project.run disk = (final, .ok report)) :
    project.IsTruthful disk final report ↔
      project.RegistryIsTold disk final.implementations := by
  obtain ⟨packages, middle, outcome?, crawled, generated, registered, rfl⟩ :=
    run_eq_ok_iff.mp ran
  have surveyed : project.IsSurveyed disk packages :=
    ⟨isValid_of_setUp valid made, fileSystem, crawled⟩
  have history : project.history disk = project.plannings
      (Module.find disk project.current project.settings.root) { disk := disk } packages := by
    simp [Project.history, crawled]
  obtain ⟨stored, stores, _, all⟩ :=
    stores_of_generatePackages real packages (generatePackages_eq_ok_iff.mpr generated)
  rw [all rfl, ← history] at stores
  have holds := surveyed.holdsPlanned real stores
  have files : middle.files = (plannedFiles (project.history disk)).map Merged.outcome := by
    rw [generated.files_eq, history]
    rfl
  cases registered with
  | nothing empty =>
      have told := surveyed.areTold_of_holdsPlanned real holds
      have nothing : (none : Option Outcome).toList = ([] : List Merged).map Merged.outcome := rfl
      rw [isTruthful_iff_areTold files nothing (by simp) (by simp [empty]), List.append_nil]
      exact ⟨fun _ something => absurd empty something, fun _ => told⟩
  | @written registry _ something planned written =>
      have nonempty : packages ≠ [] := by
        rintro rfl
        cases generated with
        | nil => exact something rfl
      have isWritten := surveyed.isWritten real nonempty holds.grown planned written rfl
      have unique := isRegistryText_iff_of_planned planned
      have same := written.progress_eq.2.1
      have implementations : final.implementations = middle.implementations := same
      have own : (some registry.outcome).toList = [registry].map Merged.outcome := rfl
      rw [isTruthful_iff_areTold (written.progress_eq.1.trans files) own
        (by simp [isWritten.path]) (by simp [implementations, something, unique])]
      by_cases shared : ∃ merged ∈ plannedFiles (project.history disk),
          merged.path = project.settings.registryPath
      · obtain ⟨merged, member, path⟩ := shared
        rw [surveyed.areTold_iff_of_shared real holds isWritten member path]
        constructor
        · rintro ⟨same, plain⟩ _ text isText
          rw [implementations, unique] at isText
          subst isText
          exact .inr ⟨merged, member, path, same, plain⟩
        · intro told
          rcases told (implementations ▸ something) registry.text
            (implementations ▸ (unique _).mpr rfl) with ⟨apart, _⟩ | ⟨other, listed, otherPath, rest⟩
          · exact absurd path (apart merged member)
          · have equal := surveyed.eq_of_location real listed member (by rw [otherPath, path])
            exact equal ▸ rest
      · have alone : project.IsAlone disk := by
          intro merged member path
          exact shared ⟨merged, member, path⟩
        rw [surveyed.areTold_iff_of_isAlone real nonempty holds isWritten alone]
        constructor
        · intro alike _ text isText
          rw [implementations, unique] at isText
          subst isText
          exact .inl ⟨alone, alike⟩
        · intro told
          rcases told (implementations ▸ something) registry.text
            (implementations ▸ (unique _).mpr rfl) with ⟨_, alike⟩ | ⟨merged, member, path, _⟩
          · exact alike
          · exact absurd path (alone merged member)

/-! ## Registries that read alike -/

/-- Where there is no registry yet, the report is true. -/
theorem isTruthful_methodDisk :
    ∃ report,
      plainProject.run methodDisk = ((plainProject.run methodDisk).1, .ok report) ∧
        plainProject.IsTruthful methodDisk (plainProject.run methodDisk).1 report := by
  obtain ⟨report, ran⟩ := exists_report plainProject methodDisk (by decide +kernel)
  refine ⟨report, ran, ?_⟩
  have valid : Settings.validate (plainSettings "r.go").toValue = .ok () := by decide +kernel
  have made : setUp "/p" plainProject.toolbox (plainSettings "r.go") = .ok plainProject := by
    rfl
  apply (isTruthful_iff_of_run valid made rfl isFileSystem_methodDisk ran).mpr
  intro _ text _
  left
  have missing : methodDisk.fileAt?
      (plainProject.fullPath plainProject.settings.registryPath) = none := by decide +kernel
  constructor
  · decide +kernel
  · intro previous present
    simp [missing] at present

/-- The registry of a package with one contract, its lines ending as given. -/
def smallRegistry (ending : Text) : Text :=
  [("// DO NOT MODIFY" : Text), "// This file will be automatically regenerated based on the API.",
    "package i", "", "//go:generate mockgen -source=../api/a.go -destination=mocks/a.go", "",
    "import (", "\t\"go.uber.org/fx\"", ")", "", "var Repositories = fx.Options(", "\tAOptions,",
    ")"].flatMap (· ++ ending)

/-- A disk with a registry whose lines end in carriage returns. -/
def returnsDisk : Disk where
  entries := methodDisk.entries ++
    [((["p", "i", "r.go"] : Location), Entry.file (Utf8.encode (smallRegistry "\r\n")))]

/-- A registry whose lines end in carriage returns stays as it is, although
another text was rendered. -/
theorem not_isTruthful_returnsDisk :
    ∃ report,
      plainProject.run returnsDisk = ((plainProject.run returnsDisk).1, .ok report) ∧
        ¬ plainProject.IsTruthful returnsDisk (plainProject.run returnsDisk).1 report := by
  have facts : (plainProject.run returnsDisk).2.isOk = true ∧
      (plainProject.run returnsDisk).1.implementations ≠ [] ∧
      Registry.render ⟨"/p", ⟨"m", "/p"⟩⟩ "/p" "i" none
          (plainProject.run returnsDisk).1.implementations = .ok (smallRegistry "\n") ∧
      (plainProject.run returnsDisk).1.disk.fileAt?
          (plainProject.fullPath plainProject.settings.registryPath) ≠
        some (Utf8.encode (smallRegistry "\n")) := by decide +kernel
  obtain ⟨succeeded, something, rendered, different⟩ := facts
  obtain ⟨report, ran⟩ := exists_report plainProject returnsDisk succeeded
  refine ⟨report, ran, ?_⟩
  intro truthful
  have isText : plainProject.IsRegistryText returnsDisk
      (plainProject.run returnsDisk).1.implementations (smallRegistry "\n") :=
    ⟨⟨"m", "/p"⟩, smallRegistry "\n", by decide +kernel, rendered, result_format rfl _ _⟩
  exact different (truthful.registry something _ isText)

end Project

end Scaffold
