import Scaffold.Proofs.Disk.Growth

/-!
# Where paths lead

A path leads to one location only, whatever is on the disk, and it gets there as
soon as something stands there.  Writing a file changes the content of its
location and nothing else; making directories changes no content at all.
-/

namespace Scaffold

namespace Disk

/-! ## Places -/

/-- Where components lead to, if all directories on the way are there. -/
def place (location : Location) (components : List Text) : Location :=
  components.foldl stepTo location

theorem walk_eq_place {disk : Disk} {components : List Text} :
    ∀ {location last}, disk.walk location components = .ok last →
      last = place location components := by
  induction components with
  | nil =>
      intro location last walked
      exact (Except.ok.inj walked).symm
  | cons component rest induction =>
      intro location last walked
      have later := (walk_cons_eq_ok_iff.mp walked).2
      exact induction later

theorem place_append_names {names : List Text} (noUp : Path.up ∉ names) :
    ∀ location, place location names = location ++ names := by
  induction names with
  | nil => simp [place]
  | cons name rest induction =>
      intro location
      have different : name ≠ Path.up := by
        intro same
        apply noUp
        simp [same]
      have later : Path.up ∉ rest := by
        intro member
        apply noUp
        simp [member]
      have step : place location (name :: rest) = place (location ++ [name]) rest := by
        simp [place, stepTo, different]
      rw [step, induction later]
      simp

theorem walk_append_iff {disk : Disk} {right : List Text} {last : Location} (left : List Text) :
    ∀ {location}, disk.walk location (left ++ right) = .ok last ↔
      ∃ middle, disk.walk location left = .ok middle ∧ disk.walk middle right = .ok last := by
  induction left with
  | nil => simp [walk]
  | cons component rest induction =>
      intro location
      rw [List.cons_append, walk_cons_eq_ok_iff, induction]
      simp only [walk_cons_eq_ok_iff]
      constructor
      · rintro ⟨directory, middle, first, second⟩
        exact ⟨middle, ⟨directory, first⟩, second⟩
      · rintro ⟨middle, ⟨directory, first⟩, second⟩
        exact ⟨directory, middle, first, second⟩

/-- The path leads to the location as soon as something stands there: its
components begin with some that can be walked, and the others are names. -/
def Reaches (disk : Disk) (path : Text) (location : Location) : Prop :=
  ∃ front names base, Path.components path = front ++ names ∧ Path.up ∉ names ∧
    disk.walk [] front = .ok base ∧ location = base ++ names

namespace Reaches

variable {disk : Disk} {path : Text} {location : Location}

theorem eq_place (reaches : disk.Reaches path location) :
    location = place [] (Path.components path) := by
  obtain ⟨front, names, base, split, noUp, walked, rfl⟩ := reaches
  have start := walk_eq_place walked
  rw [split, place, List.foldl_append, ← place, ← place, ← start, place_append_names noUp]

theorem of_growsTo {after : Disk} (reaches : disk.Reaches path location)
    (grown : disk.GrowsTo after) : after.Reaches path location := by
  obtain ⟨front, names, base, split, noUp, walked, rfl⟩ := reaches
  exact ⟨front, names, base, split, noUp, grown.walk walked, rfl⟩

theorem append {longer : Text} {added : List Text} (reaches : disk.Reaches path location)
    (noUp : Path.up ∉ added)
    (components : Path.components longer = Path.components path ++ added) :
    disk.Reaches longer (location ++ added) := by
  obtain ⟨front, names, base, split, namesNoUp, walked, rfl⟩ := reaches
  have both : Path.up ∉ names ++ added := by
    simp [namesNoUp, noUp]
  exact ⟨front, names ++ added, base, by rw [components, split, List.append_assoc], both, walked,
    List.append_assoc base names added⟩

theorem walk_eq (reaches : disk.Reaches path location) {last : Location}
    (walked : disk.walk [] (Path.components path) = .ok last) : last = location := by
  rw [reaches.eq_place, walk_eq_place walked]

theorem walk_of_present (reaches : disk.Reaches path location) (tree : disk.IsTree)
    (present : disk.entry? location ≠ none) :
    disk.walk [] (Path.components path) = .ok location := by
  obtain ⟨front, names, base, split, noUp, walked, rfl⟩ := reaches
  rw [split, walk_append_iff]
  exact ⟨base, walked, tree.walk_of_present noUp present⟩

theorem fileAt?_eq_some_iff (reaches : disk.Reaches path location) (tree : disk.IsTree)
    {content : Bytes} :
    disk.fileAt? path = some content ↔
      mayBeFile path = true ∧ disk.content? location = some content := by
  rw [Disk.fileAt?_eq_some_iff]
  constructor
  · rintro ⟨possible, last, walked, present⟩
    rw [reaches.walk_eq walked] at present
    exact ⟨possible, present⟩
  · rintro ⟨possible, present⟩
    have entry := content?_eq_some_iff.mp present
    have walked := reaches.walk_of_present tree (by rw [entry]; simp)
    exact ⟨possible, location, walked, present⟩

/-- The directory at the path is the directory at the location. -/
theorem isDirectory_iff (reaches : disk.Reaches path location) (tree : disk.IsTree) :
    disk.isDirectory path = true ↔
      holdsNull path = false ∧ disk.entry? location = some .directory := by
  unfold isDirectory at?
  cases holdsNull path with
  | true => simp
  | false =>
      simp only [Bool.false_eq_true, if_false, beq_iff_eq, true_and]
      unfold locate
      constructor
      · intro found
        cases walked : disk.walk [] (Path.components path) with
        | error fault => simp [walked] at found
        | ok last =>
            have same := reaches.walk_eq walked
            subst same
            simp only [walked] at found
            split at found
            · simp at found
            · rename_i located
              split at located
              · simp at located
              · rw [← Except.ok.inj located] at found
                exact found
      · intro directory
        have walked := reaches.walk_of_present tree (by rw [directory]; simp)
        simp [walked, content?_of_directory directory, directory]

theorem locate_of_directory (reaches : disk.Reaches path location) (tree : disk.IsTree)
    (directory : disk.entry? location = some .directory) :
    disk.locate path = .ok location := by
  have walked := reaches.walk_of_present tree (by rw [directory]; simp)
  simp [locate, walked, content?_of_directory directory]

end Reaches

theorem reaches_of_locate {disk : Disk} {path : Text} {location : Location}
    (located : disk.locate path = .ok location) : disk.Reaches path location := by
  unfold locate at located
  split at located
  · simp at located
  · rename_i last walked
    split at located
    · simp at located
    · rw [← Except.ok.inj located]
      exact ⟨_, [], last, (List.append_nil _).symm, List.not_mem_nil, walked,
        (List.append_nil last).symm⟩

theorem read_eq_ok_iff {disk : Disk} {path : Text} {content : Bytes} :
    disk.read path = .ok content ↔ disk.fileAt? path = some content := by
  unfold read readAs fileAt? at?
  cases holdsNull path with
  | true => simp
  | false =>
      cases disk.locate path with
      | error fault => simp
      | ok location =>
          cases entry : disk.entry? location with
          | none => simp [entry]
          | some found => cases found <;> simp [entry]

/-! ## Disks that agree -/

/-- The disks have the same files, except at locations that may have changed. -/
structure AgreesOutside (changed : Location → Prop) (before after : Disk) : Prop where
  contents : ∀ location, ¬ changed location → after.content? location = before.content? location
  files : ∀ directory, (∀ name, ¬ changed (directory ++ [name])) →
    after.filesIn directory = before.filesIn directory

namespace AgreesOutside

theorem refl (changed : Location → Prop) (disk : Disk) : AgreesOutside changed disk disk := by
  constructor
  · intro location _
    rfl
  · intro directory _
    rfl

theorem trans {changed : Location → Prop} {first second third : Disk}
    (left : AgreesOutside changed first second) (right : AgreesOutside changed second third) :
    AgreesOutside changed first third := by
  constructor
  · intro location kept
    rw [right.contents location kept, left.contents location kept]
  · intro directory kept
    rw [right.files directory kept, left.files directory kept]

theorem mono {some more : Location → Prop} {before after : Disk}
    (agrees : AgreesOutside some before after) (wider : ∀ location, some location → more location) :
    AgreesOutside more before after := by
  constructor
  · intro location kept
    apply agrees.contents
    intro changed
    exact kept (wider location changed)
  · intro directory kept
    apply agrees.files
    intro name changed
    exact kept name (wider _ changed)

end AgreesOutside

/-- A replaced entry is not seen where neither it nor the old one counts. -/
theorem filterMap_replace {α : Type} {count : Location × Entry → Option α} {location : Location}
    {entry : Entry} (silent : count (location, entry) = none)
    (entries : List (Location × Entry)) :
    (∀ present, find? location entries = some present → count (location, present) = none) →
      (replace location entry entries).filterMap count = entries.filterMap count := by
  induction entries with
  | nil =>
      intro _
      simp [replace, silent]
  | cons item rest induction =>
      intro old
      obtain ⟨here, present⟩ := item
      rw [replace]
      by_cases same : here = location
      · subst same
        have before := old present (by simp [find?])
        simp [silent, before]
      · have later : ∀ present, find? location rest = some present →
            count (location, present) = none := by
          intro present found
          exact old present (by simp [find?, same, found])
        rw [if_neg same, List.filterMap_cons, List.filterMap_cons, induction later]

/-- The way from a directory to a file below it, and the content of the file. -/
def fileBelow? (directory : Location) (item : Location × Entry) : Option (Location × Bytes) :=
  match item with
  | (place, .file content) =>
    if directory.isPrefixOf place then some (place.drop directory.length, content) else none
  | _ => none

theorem filesBelow_eq (disk : Disk) (directory : Location) :
    disk.filesBelow directory = disk.entries.filterMap (fileBelow? directory) := rfl

theorem fileBelow?_eq_some_iff {directory : Location} {item : Location × Entry}
    {file : Location × Bytes} :
    fileBelow? directory item = some file ↔ item = (directory ++ file.1, .file file.2) := by
  constructor
  · intro below
    obtain ⟨place, entry⟩ := item
    cases entry with
    | directory => simp [fileBelow?] at below
    | file content =>
        dsimp only [fileBelow?] at below
        split at below
        · rename_i above
          obtain ⟨way, rfl⟩ := List.isPrefixOf_iff_prefix.mp above
          rw [← Option.some.inj below, List.drop_left]
        · simp at below
  · rintro rfl
    have above := List.isPrefixOf_iff_prefix.mpr (List.prefix_append directory file.1)
    simp [fileBelow?, above]

theorem mem_filesBelow_iff {disk : Disk} {directory : Location} {file : Location × Bytes} :
    file ∈ disk.filesBelow directory ↔
      (directory ++ file.1, Entry.file file.2) ∈ disk.entries := by
  rw [filesBelow_eq, List.mem_filterMap]
  simp only [fileBelow?_eq_some_iff, exists_eq_right]

/-- The name and the content of an entry that is a file directly inside a
directory. -/
def fileIn? (directory : Location) : Location × Entry → Option (Text × Bytes)
  | (place, .file content) =>
    if directory.isPrefixOf place then
      match place.drop directory.length with
      | [name] => some (name, content)
      | _ => none
    else none
  | _ => none

theorem filesIn_eq (disk : Disk) (directory : Location) :
    disk.filesIn directory = disk.entries.filterMap (fileIn? directory) := by
  unfold filesIn filesBelow
  rw [List.filterMap_filterMap]
  congr 1
  funext item
  obtain ⟨place, entry⟩ := item
  cases entry with
  | directory => simp [fileIn?]
  | file content =>
      simp only [fileIn?]
      split <;> rfl

theorem eq_append_of_fileIn? {directory place : Location} {entry : Entry}
    {file : Text × Bytes} (inside : fileIn? directory (place, entry) = some file) :
    place = directory ++ [file.1] ∧ entry = .file file.2 := by
  cases entry with
  | directory => simp [fileIn?] at inside
  | file content =>
      simp only [fileIn?] at inside
      split at inside
      · rename_i below
        split at inside
        · rename_i name rest
          rw [← Option.some.inj inside]
          obtain ⟨others, whole⟩ := List.isPrefixOf_iff_prefix.mp below
          rw [← whole, List.drop_left] at rest
          exact ⟨by rw [← whole, rest], rfl⟩
        · simp at inside
      · simp at inside

theorem mem_filesIn {disk : Disk} {directory : Location} {file : Text × Bytes}
    (member : file ∈ disk.filesIn directory) :
    (directory ++ [file.1], Entry.file file.2) ∈ disk.entries := by
  rw [filesIn_eq] at member
  obtain ⟨⟨place, entry⟩, listed, inside⟩ := List.mem_filterMap.mp member
  obtain ⟨rfl, rfl⟩ := eq_append_of_fileIn? inside
  exact listed

theorem find?_of_mem {location : Location} {entry : Entry} (entries : List (Location × Entry))
    (member : (location, entry) ∈ entries) : find? location entries ≠ none := by
  induction entries with
  | nil => simp at member
  | cons item rest induction =>
      obtain ⟨here, present⟩ := item
      rw [find?]
      split
      · simp
      · rename_i different
        apply induction
        cases member with
        | head => exact absurd rfl different
        | tail _ later => exact later

theorem entry?_of_mem {disk : Disk} {location : Location} {entry : Entry}
    (member : (location, entry) ∈ disk.entries) : disk.entry? location ≠ none := by
  unfold entry?
  split
  · simp
  · exact find?_of_mem disk.entries member

theorem agreesOutside_put_directory {disk : Disk} {location : Location}
    (missing : disk.entry? location = none) (changed : Location → Prop) :
    AgreesOutside changed disk (disk.put location .directory) := by
  have inside : location ≠ [] := ne_nil_of_missing missing
  have absent : find? location disk.entries = none := by
    have notRoot : ¬ location.isEmpty = true := by simpa using inside
    unfold entry? at missing
    rw [if_neg notRoot] at missing
    exact missing
  constructor
  · intro other _
    by_cases same : other = location
    · subst same
      have now : Disk.entry? (disk.put other .directory) other = some .directory := by
        rw [entry?_put inside, if_pos rfl]
      rw [content?_of_missing missing, content?_of_directory now]
    · exact content?_put inside _ disk same
  · intro directory _
    rw [filesIn_eq, filesIn_eq]
    apply filterMap_replace
    · rfl
    · intro present found
      rw [absent] at found
      simp at found

theorem agreesOutside_put_file {disk : Disk} {location : Location} (inside : location ≠ [])
    (content : Bytes) :
    AgreesOutside (· = location) disk (disk.put location (.file content)) := by
  constructor
  · intro other different
    exact content?_put inside _ disk different
  · intro directory elsewhere
    have silent (entry : Entry) : fileIn? directory (location, entry) = none := by
      cases found : fileIn? directory (location, entry) with
      | none => rfl
      | some file =>
          have same := (eq_append_of_fileIn? found).1
          exact absurd same.symm (elsewhere file.1)
    rw [filesIn_eq, filesIn_eq]
    apply filterMap_replace
    · exact silent _
    · intro present _
      exact silent present

/-! ## Writing files -/

/-- Writing the file of a path sets the content of the path's location and
leaves every other file as it was. -/
theorem content?_of_write {disk written : Disk} {path : Text} {location : Location}
    {content : Bytes} (reaches : disk.Reaches path location)
    (result : disk.write path content = .ok written) :
    mayBeFile path = true ∧ written.content? location = some content ∧
      AgreesOutside (· = location) disk written := by
  obtain ⟨possible, last, walked, noDirectory, _, rfl⟩ := write_eq_ok_iff.mp result
  have same := reaches.walk_eq walked
  subst same
  have inside : last ≠ [] := ne_nil_of_noDirectory noDirectory
  have now : Disk.entry? (disk.put last (.file content)) last = some (.file content) := by
    rw [entry?_put inside, if_pos rfl]
  exact ⟨possible, content?_eq_some_iff.mpr now, agreesOutside_put_file inside content⟩

/-! ## File systems -/

/-- What a file system without links holds: a tree whose names are components
other than steps up. -/
structure IsFileSystem (disk : Disk) : Prop where
  tree : disk.IsTree
  names : ∀ item ∈ disk.entries, ∀ name ∈ item.1, Path.IsComponent name ∧ name ≠ Path.up

theorem IsFileSystem.name_of_mem_filesIn {disk : Disk} (fileSystem : disk.IsFileSystem)
    {directory : Location} {file : Text × Bytes} (member : file ∈ disk.filesIn directory) :
    Path.IsComponent file.1 ∧ file.1 ≠ Path.up := by
  apply fileSystem.names _ (mem_filesIn member)
  simp

end Disk

end Scaffold
