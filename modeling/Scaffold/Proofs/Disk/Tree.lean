import Scaffold.Disk.Access
import Scaffold.Proofs.Path.Components

/-!
# Disks as trees

On a real disk everything stands inside a directory.  There a path without steps
up leads to the location of its components, and the file at the path is the file
at that location.
-/

namespace Scaffold

namespace Disk

/-! ## Entries -/

theorem find?_replace (location other : Location) (entry : Entry)
    (entries : List (Location × Entry)) :
    find? other (replace location entry entries) =
      if other = location then some entry else find? other entries := by
  induction entries with
  | nil =>
      simp only [replace, find?, eq_comm (a := location)]
  | cons item rest induction =>
      obtain ⟨place, present⟩ := item
      rw [replace]
      by_cases here : place = location
      · subst here
        rw [if_pos rfl, find?, find?]
        by_cases same : other = place
        · rw [if_pos same, if_pos same.symm]
        · rw [if_neg same, if_neg (Ne.symm same), if_neg (Ne.symm same)]
      · rw [if_neg here, find?, find?, induction]
        by_cases same : place = other
        · rw [if_pos same, if_pos same, if_neg (fun equal => here (same.trans equal))]
        · rw [if_neg same, if_neg same]

theorem entry?_nil (disk : Disk) : disk.entry? [] = some .directory := rfl

theorem ne_nil_of_noDirectory {disk : Disk} {location : Location}
    (noDirectory : disk.entry? location ≠ some .directory) : location ≠ [] := by
  rintro rfl
  exact noDirectory disk.entry?_nil

theorem ne_nil_of_missing {disk : Disk} {location : Location}
    (missing : disk.entry? location = none) : location ≠ [] := by
  apply ne_nil_of_noDirectory
  rw [missing]
  simp

theorem entry?_put {location : Location} (inside : location ≠ []) (entry : Entry) (disk : Disk)
    (other : Location) :
    Disk.entry? (disk.put location entry) other =
      if other = location then some entry else disk.entry? other := by
  unfold entry?
  by_cases root : other = []
  · subst root
    rw [if_neg (Ne.symm inside)]
    rfl
  · have notRoot : ¬ other.isEmpty = true := fun empty => root (List.isEmpty_iff.mp empty)
    rw [if_neg notRoot, if_neg notRoot]
    exact find?_replace location other entry disk.entries

theorem content?_eq_some_iff {disk : Disk} {location : Location} {content : Bytes} :
    disk.content? location = some content ↔ disk.entry? location = some (.file content) := by
  unfold content?
  split
  · rename_i found present
    rw [present]
    simp
  · rename_i other
    constructor
    · intro impossible
      exact absurd impossible (by simp)
    · intro present
      exact absurd present (other content)

theorem content?_of_directory {disk : Disk} {location : Location}
    (directory : disk.entry? location = some .directory) : disk.content? location = none := by
  simp [content?, directory]

theorem content?_of_missing {disk : Disk} {location : Location}
    (missing : disk.entry? location = none) : disk.content? location = none := by
  simp [content?, missing]

theorem content?_put {location : Location} (inside : location ≠ []) (entry : Entry) (disk : Disk)
    {other : Location} (different : other ≠ location) :
    (disk.put location entry).content? other = disk.content? other := by
  simp only [content?, entry?_put inside, if_neg different]

/-! ## Walks -/

/-- Where one component leads to. -/
def stepTo (location : Location) (component : Text) : Location :=
  if component = Path.up then location.dropLast else location ++ [component]

theorem walk_cons_eq_ok_iff {disk : Disk} {location last : Location} {component : Text}
    {rest : List Text} :
    disk.walk location (component :: rest) = .ok last ↔
      disk.entry? location = some .directory ∧
        disk.walk (stepTo location component) rest = .ok last := by
  rw [walk]
  split
  · rename_i missing
    simp [missing]
  · rename_i file
    simp [file]
  · rename_i directory
    simp [directory, stepTo]

theorem walk_append_eq_ok_iff {disk : Disk} {last : Location} {component : Text}
    (components : List Text) :
    ∀ {location}, disk.walk location (components ++ [component]) = .ok last ↔
      ∃ parent, disk.walk location components = .ok parent ∧
        disk.entry? parent = some .directory ∧ last = stepTo parent component := by
  induction components with
  | nil =>
      intro location
      rw [List.nil_append, walk_cons_eq_ok_iff]
      simp only [walk, Except.ok.injEq, exists_eq_left', eq_comm]
  | cons first rest induction =>
      intro location
      simp only [List.cons_append, walk_cons_eq_ok_iff, induction]
      constructor
      · rintro ⟨directory, parent, walked, inside, last⟩
        exact ⟨parent, ⟨directory, walked⟩, inside, last⟩
      · rintro ⟨parent, ⟨directory, walked⟩, inside, last⟩
        exact ⟨directory, parent, walked, inside, last⟩

theorem walk_eq_append {disk : Disk} {components : List Text} (noUp : Path.up ∉ components) :
    ∀ {location last}, disk.walk location components = .ok last →
      last = location ++ components := by
  induction components with
  | nil =>
      intro location last walked
      rw [List.append_nil]
      exact (Except.ok.inj walked).symm
  | cons component rest induction =>
      intro location last walked
      have different : component ≠ Path.up := fun same => noUp (same ▸ List.mem_cons_self)
      obtain ⟨_, later⟩ := walk_cons_eq_ok_iff.mp walked
      rw [stepTo, if_neg different] at later
      have following := induction (fun member => noUp (List.mem_cons_of_mem component member))
        later
      rw [following, List.append_assoc]
      rfl

/-! ## Trees -/

/-- Everything on the disk stands inside a directory. -/
def IsTree (disk : Disk) : Prop :=
  ∀ location, location ≠ [] → disk.entry? location ≠ none →
    disk.entry? location.dropLast = some .directory

theorem mem_map_of_find? {location : Location} (entries : List (Location × Entry))
    (present : find? location entries ≠ none) : location ∈ entries.map Prod.fst := by
  induction entries with
  | nil => exact absurd rfl present
  | cons item rest induction =>
      obtain ⟨place, entry⟩ := item
      rw [find?] at present
      split at present
      · rename_i here
        rw [← here]
        exact List.mem_cons_self
      · exact List.mem_cons_of_mem place (induction present)

theorem isTree_of_entries {disk : Disk}
    (inside : ∀ item ∈ disk.entries, disk.entry? item.1.dropLast = some .directory) :
    disk.IsTree := by
  intro location notRoot present
  have known : ¬ location.isEmpty = true := fun empty => notRoot (List.isEmpty_iff.mp empty)
  unfold entry? at present
  rw [if_neg known] at present
  obtain ⟨item, member, rfl⟩ := List.mem_map.mp (mem_map_of_find? disk.entries present)
  exact inside item member

theorem IsTree.directory_of_prefix {disk : Disk} (tree : disk.IsTree) (rest : List Text) :
    ∀ {location : Location} {component : Text},
      disk.entry? (location ++ component :: rest) ≠ none →
        disk.entry? location = some .directory := by
  have parent {location : Location} {component : Text}
      (present : disk.entry? (location ++ [component]) ≠ none) :
      disk.entry? location = some .directory := by
    have directory := tree (location ++ [component]) (by simp) present
    rwa [List.dropLast_concat] at directory
  induction rest with
  | nil => exact fun present => parent present
  | cons next others induction =>
      intro location component present
      rw [List.append_cons] at present
      have directory := induction present
      exact parent (by rw [directory]; simp)

theorem IsTree.walk_of_present {disk : Disk} (tree : disk.IsTree) {components : List Text}
    (noUp : Path.up ∉ components) :
    ∀ {location : Location}, disk.entry? (location ++ components) ≠ none →
      disk.walk location components = .ok (location ++ components) := by
  induction components with
  | nil =>
      intro location _
      rw [List.append_nil]
      rfl
  | cons component rest induction =>
      intro location present
      have different : component ≠ Path.up := fun same => noUp (same ▸ List.mem_cons_self)
      rw [walk_cons_eq_ok_iff, stepTo, if_neg different]
      refine ⟨tree.directory_of_prefix rest present, ?_⟩
      rw [List.append_cons location component rest] at present ⊢
      exact induction (fun member => noUp (List.mem_cons_of_mem component member)) present

/-! ## Files by path -/

/-- A path that may lead to a file. -/
def mayBeFile (path : Text) : Bool :=
  !(holdsNull path || (endsInSlash path || endsInDot path))

theorem at?_eq_file_iff {disk : Disk} {path : Text} {content : Bytes} :
    disk.at? path = some (.file content) ↔
      mayBeFile path = true ∧ ∃ location,
        disk.walk [] (Path.components path) = .ok location ∧
          disk.entry? location = some (.file content) := by
  unfold at? locate mayBeFile
  cases holdsNull path with
  | true => simp
  | false =>
      cases disk.walk [] (Path.components path) with
      | error fault => simp
      | ok location =>
          cases endsInSlash path || endsInDot path with
          | false => simp
          | true =>
              -- A file at the location makes the path wrong, and nothing else is a file.
              cases present : disk.content? location with
              | some found => simp [present]
              | none =>
                  have noFile : disk.entry? location ≠ some (.file content) := by
                    intro entry
                    rw [content?_eq_some_iff.mpr entry] at present
                    exact absurd present (by simp)
                  simp [present, noFile]

theorem fileAt?_eq_some_iff {disk : Disk} {path : Text} {content : Bytes} :
    disk.fileAt? path = some content ↔
      mayBeFile path = true ∧ ∃ location,
        disk.walk [] (Path.components path) = .ok location ∧
          disk.content? location = some content := by
  simp only [content?_eq_some_iff, ← at?_eq_file_iff]
  unfold fileAt?
  split
  · rename_i found entry
    simp [entry]
  · rename_i other
    constructor
    · intro impossible
      exact absurd impossible (by simp)
    · intro entry
      exact absurd entry (other content)

theorem IsTree.fileAt?_eq_some_iff {disk : Disk} (tree : disk.IsTree) {path : Text}
    (noUp : Path.up ∉ Path.components path) {content : Bytes} :
    disk.fileAt? path = some content ↔
      mayBeFile path = true ∧ disk.content? (Path.components path) = some content := by
  rw [Disk.fileAt?_eq_some_iff]
  constructor
  · rintro ⟨possible, location, walked, present⟩
    rw [walk_eq_append noUp walked] at present
    exact ⟨possible, present⟩
  · rintro ⟨possible, present⟩
    have entry := content?_eq_some_iff.mp present
    have reached := @IsTree.walk_of_present disk tree _ noUp [] (by
      rw [List.nil_append, entry]
      simp)
    exact ⟨possible, _, reached, present⟩

end Disk

end Scaffold
