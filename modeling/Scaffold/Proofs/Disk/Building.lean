import Scaffold.Proofs.Disk.Place

/-!
# Building on a disk

Whatever is written is built in steps: a missing directory is made, or a file is
written.  What each step keeps is kept by all of them, in particular everything
below a directory in which no file is written.
-/

namespace Scaffold

namespace Disk

open Path (IsComponent)

/-- All names on the way are components other than steps up. -/
def IsProper (location : Location) : Prop :=
  ∀ name ∈ location, IsComponent name ∧ name ≠ Path.up

theorem isProper_of_walk {disk : Disk} {components : List Text}
    (proper : ∀ component ∈ components, IsComponent component) :
    ∀ {location last}, IsProper location → disk.walk location components = .ok last →
      IsProper last := by
  induction components with
  | nil =>
      intro location last before walked
      exact Except.ok.inj walked ▸ before
  | cons component rest induction =>
      intro location last before walked
      refine induction (fun other member => proper other (List.mem_cons_of_mem component member))
        ?_ (walk_cons_eq_ok_iff.mp walked).2
      intro name member
      unfold stepTo at member
      split at member
      · exact before name ((List.dropLast_sublist _).mem member)
      · rename_i down
        rcases List.mem_append.mp member with old | new
        · exact before name old
        · rw [List.mem_singleton.mp new]
          exact ⟨proper component List.mem_cons_self, down⟩

/-- A disk becomes another one by making missing directories and by writing
files at some locations. -/
inductive Builds (written : Location → Prop) (before : Disk) : Disk → Prop where
  | refl : Builds written before before
  | directory {after location} (first : Builds written before after) (proper : IsProper location)
      (missing : after.entry? location = none) :
      Builds written before (after.put location .directory)
  | file {after location content} (first : Builds written before after) (proper : IsProper location)
      (noDirectory : after.entry? location ≠ some .directory) (there : written location) :
      Builds written before (after.put location (.file content))

namespace Builds

variable {written : Location → Prop} {before after : Disk}

theorem trans {last : Disk} (left : Builds written before after)
    (right : Builds written after last) : Builds written before last := by
  induction right with
  | refl => exact left
  | directory _ proper missing induction => exact .directory induction proper missing
  | file _ proper noDirectory there induction => exact .file induction proper noDirectory there

theorem mono {more : Location → Prop} (builds : Builds written before after)
    (wider : ∀ location, written location → more location) : Builds more before after := by
  induction builds with
  | refl => exact .refl
  | directory _ proper missing induction => exact .directory induction proper missing
  | file _ proper noDirectory there induction =>
      exact .file induction proper noDirectory (wider _ there)

/-! ## What building keeps -/

theorem mem_replace {item : Location × Entry} {location : Location} {entry : Entry}
    {entries : List (Location × Entry)} (member : item ∈ replace location entry entries) :
    item = (location, entry) ∨ item ∈ entries := by
  induction entries with
  | nil => exact .inl (List.mem_singleton.mp member)
  | cons first rest induction =>
      obtain ⟨place, present⟩ := first
      rw [replace] at member
      split at member
      · rename_i same
        rcases List.mem_cons.mp member with rfl | later
        · exact .inl (by rw [same])
        · exact .inr (List.mem_cons_of_mem _ later)
      · rcases List.mem_cons.mp member with rfl | later
        · exact .inr List.mem_cons_self
        · exact (induction later).imp_right (List.mem_cons_of_mem _)

theorem isProper (builds : Builds written before after)
    (proper : ∀ item ∈ before.entries, IsProper item.1) :
    ∀ item ∈ after.entries, IsProper item.1 := by
  induction builds with
  | refl => exact proper
  | directory _ here _ induction =>
      intro item member
      rcases mem_replace member with rfl | old
      · exact here
      · exact induction item old
  | file _ here _ _ induction =>
      intro item member
      rcases mem_replace member with rfl | old
      · exact here
      · exact induction item old

theorem agreesOutside (builds : Builds written before after) :
    AgreesOutside written before after := by
  induction builds with
  | refl => exact .refl written before
  | directory _ _ missing induction =>
      exact induction.trans (agreesOutside_put_directory missing written)
  | @file _ location _ _ _ noDirectory there induction =>
      refine induction.trans
        ((agreesOutside_put_file (ne_nil_of_noDirectory noDirectory) _).mono ?_)
      rintro _ rfl
      exact there

theorem filesBelow (builds : Builds written before after) {directory : Location}
    (outside : ∀ location, written location → ¬ directory <+: location) :
    after.filesBelow directory = before.filesBelow directory := by
  induction builds with
  | refl => rfl
  | @directory _ location _ _ missing induction =>
      refine Eq.trans ?_ induction
      rw [filesBelow_eq, filesBelow_eq]
      apply filterMap_replace
      · rfl
      · intro present found
        have inside : location ≠ [] := ne_nil_of_missing missing
        unfold entry? at missing
        rw [if_neg (by simpa using inside), found] at missing
        simp at missing
  | @file _ location _ _ _ _ there induction =>
      refine Eq.trans ?_ induction
      have silent (entry : Entry) : fileBelow? directory (location, entry) = none := by
        have elsewhere : directory.isPrefixOf location = false := by
          rw [Bool.eq_false_iff, ne_eq, List.isPrefixOf_iff_prefix]
          exact outside location there
        cases entry <;> simp [fileBelow?, elsewhere]
      rw [filesBelow_eq, filesBelow_eq]
      exact filterMap_replace (silent _) _ fun present _ => silent present

end Builds

/-! ## Making directories and writing files -/

variable {written : Location → Prop}

theorem builds_of_makeOne {disk made : Disk} {components : List Text}
    (proper : ∀ component ∈ components, IsComponent component)
    (result : disk.makeOne components = .ok made) : Builds written disk made := by
  unfold makeOne at result
  split at result
  · simp at result
  · rename_i location walked
    split at result
    · simp at result
    · rename_i missing
      rw [← Except.ok.inj result]
      exact .directory .refl (isProper_of_walk proper (by simp [IsProper]) walked) missing

theorem builds_of_orPresent {disk made : Disk} {components : List Text}
    (proper : ∀ component ∈ components, IsComponent component)
    (result : disk.orPresent components (disk.makeOne components) = .ok made) :
    Builds written disk made := by
  cases one : disk.makeOne components with
  | ok found =>
      rw [one, orPresent, Except.ok.injEq] at result
      exact builds_of_makeOne proper (result ▸ one)
  | error fault =>
      rw [one, orPresent] at result
      split at result
      · rw [← Except.ok.inj result]
        exact .refl
      · simp at result

theorem builds_of_makeAll (components : List Text) :
    ∀ {disk made : Disk}, (∀ component ∈ components, IsComponent component) →
      disk.makeAll components = .ok made → Builds written disk made := by
  induction components with
  | nil =>
      intro disk made _ result
      rw [makeAll, Except.ok.injEq] at result
      exact result ▸ .refl
  | cons last parents induction =>
      intro disk made proper result
      have whole : ∀ component ∈ (last :: parents).reverse, IsComponent component :=
        fun component member => proper component (List.mem_reverse.mp member)
      rw [makeAll] at result
      split at result
      · split at result
        · simp at result
        · rename_i prepared before
          exact (induction (fun other member => proper other (List.mem_cons_of_mem last member))
            before).trans (builds_of_orPresent whole result)
      · exact builds_of_orPresent whole result

theorem builds_of_makeDirectories {disk made : Disk} {path : Text}
    (result : disk.makeDirectories path = .ok made) : Builds written disk made := by
  unfold makeDirectories at result
  split at result
  · simp at result
  · refine builds_of_makeAll _ (fun component member => ?_) result
    exact Path.isComponent_of_mem_components component (List.mem_reverse.mp member)

theorem builds_of_write {disk after : Disk} {path : Text} {content : Bytes}
    (result : disk.write path content = .ok after) :
    Builds (· = place [] (Path.components path)) disk after := by
  obtain ⟨_, location, walked, noDirectory, _, rfl⟩ := write_eq_ok_iff.mp result
  exact .file .refl
    (isProper_of_walk Path.isComponent_of_mem_components (by simp [IsProper]) walked) noDirectory
    (walk_eq_place walked)

/-! ## Editing files -/

theorem IsFileSystem.replaceFile {disk : Disk} (fileSystem : disk.IsFileSystem)
    {location : Location} {present : Bytes} (file : disk.content? location = some present)
    (content : Bytes) : (disk.put location (.file content)).IsFileSystem := by
  have entry := content?_eq_some_iff.mp file
  have noDirectory : disk.entry? location ≠ some .directory := by simp [entry]
  have inside : location ≠ [] := ne_nil_of_noDirectory noDirectory
  have known : location ∈ disk.entries.map Prod.fst := by
    unfold entry? at entry
    rw [if_neg (by simpa using inside)] at entry
    exact mem_map_of_find? disk.entries (by simp [entry])
  obtain ⟨item, member, rfl⟩ := List.mem_map.mp known
  refine ⟨isTree_put fileSystem.tree inside (fileSystem.tree _ inside (by simp [entry])) ?_, ?_⟩
  · exact fun directory => absurd directory noDirectory
  · have builds : Builds (fun _ => True) disk (disk.put item.1 (.file content)) :=
      .file .refl (fileSystem.names item member) noDirectory trivial
    exact builds.isProper fileSystem.names

/-- The files at other paths stay as they are. -/
theorem IsFileSystem.fileAt?_replaceFile {disk : Disk} (fileSystem : disk.IsFileSystem)
    {location : Location} {present : Bytes} (file : disk.content? location = some present)
    (content : Bytes) {path : Text} (noUp : Path.up ∉ Path.components path)
    (different : Path.components path ≠ location) :
    (disk.put location (.file content)).fileAt? path = disk.fileAt? path := by
  have entry := content?_eq_some_iff.mp file
  have noDirectory : disk.entry? location ≠ some .directory := by simp [entry]
  have inside : location ≠ [] := ne_nil_of_noDirectory noDirectory
  apply Option.ext
  intro found
  rw [(fileSystem.replaceFile file content).tree.fileAt?_eq_some_iff noUp,
    fileSystem.tree.fileAt?_eq_some_iff noUp, content?_put inside _ disk different]

end Disk

end Scaffold
