import Scaffold.Proofs.Disk.Order
import Scaffold.Proofs.Implementation.Unwritten

/-!
# What a scan finds

A scan finds one implementation for each contract.  It depends on the source files that
the package holds and on what each of them shows, not on the order in which they are
listed, and it does not matter which of the files shows a method.
-/

namespace Scaffold

open Go (SourceFile Tree)

/-- A file is parsed, and its name is kept. -/
def IsParsed (entry : Text × Bytes) (file : Text × SourceFile) : Prop :=
  file.1 = entry.1 ∧ SourceFile.ofBytes entry.2 = .ok file.2

/-- All source files of a directory are parsed, in whatever order they are listed; a
directory that is not there has none. -/
inductive Disk.Holds (disk : Disk) (directory : Text) : List (Text × SourceFile) → Prop where
  | present {location : Location} {listing : List (Text × Bytes)} {files : List (Text × SourceFile)}
      (there : disk.isDirectory directory = true)
      (leads : disk.locate directory = .ok location)
      (listed : listing.Perm (disk.filesIn location))
      (parsed : List.Forall₂ IsParsed (listing.filter fun entry => Go.isSourceName entry.1) files) :
      Holds disk directory files
  | missing (nowhere : disk.isDirectory directory = false) : Holds disk directory []

/-! ## Files of a package -/

section Files

variable (files : List (Text × SourceFile))

/-- Of the files that have a property, a file is the first one by name. -/
structure IsFirst (has : SourceFile → Prop) (file : Text × SourceFile) : Prop where
  member : file ∈ files
  hasIt : has file.2
  least : ∀ other ∈ files, has other.2 → (Text.order file.1 other.1).isLE = true

/-- The package has the name that the first file with one gives it, or the default. -/
inductive IsPackageName (default : Text) : Text → Prop where
  | given {file : Text × SourceFile} {name : Text}
      (first : IsFirst files (fun source => (FileFacts.ofFile source).package? ≠ none) file)
      (named : (FileFacts.ofFile file.2).package? = some name) : IsPackageName default name
  | default (nameless : ∀ file ∈ files, (FileFacts.ofFile file.2).package? = none) :
      IsPackageName default default

/-- The file shows the backing type. -/
def Yields (type : Text) (source : SourceFile) : Prop :=
  type ∈ (FileFacts.ofFile source).typeNames

instance (type : Text) (source : SourceFile) : Decidable (Yields type source) :=
  inferInstanceAs (Decidable (_ ∈ _))

/-- What a package with some files has for a contract. -/
structure IsRecord (packageName packagePath : Text) (contract : Contract)
    (record : Implementation) : Prop where
  ofContract : record.contract = contract
  ofPackage : record.packageName = packageName
  atPath : record.packagePath = packagePath
  known : record.isNew = false ↔ ∃ file ∈ files, Yields contract.backingName file.2
  place : record.isNew = false →
    ∃ file, IsFirst files (Yields contract.backingName) file ∧ record.fileName = file.1
  union : record.isNew = false → ∀ name, name ∈ record.existing ↔
    ∃ file ∈ files, Lists (FileFacts.ofFile file.2).methods contract.backingName name
  new : record.isNew = true → record.fileName = contract.defaultFileName ∧ record.existing = []

/-- The records of contracts, the first of which gives the package its default name. -/
def AreRecords (packagePath : Text) (first : Contract) (rest : List Contract)
    (records : List Implementation) : Prop :=
  ∃ packageName, IsPackageName files (implementationPackageName first.packageName) packageName ∧
    List.Forall₂ (IsRecord files packageName packagePath) (first :: rest) records

end Files

/-- The receiver types and the names in a method declaration. -/
def heading (declaration : Tree) : List Text × List Text :=
  ((SourceFile.receiverTypes declaration).map Tree.code, (declaration.parts .name).map Tree.code)

/-- The headings of all methods of some files. -/
def headings (files : List (Text × SourceFile)) : List (List Text × List Text) :=
  files.flatMap fun file => (file.2.topLevel .methodDeclaration).map heading

/-- Methods move between files, which keep their names, package names and types. -/
structure IsMoved (files others : List (Text × SourceFile)) : Prop where
  names : ∀ name, name ∈ others.map Prod.fst ↔ name ∈ files.map Prod.fst
  packages : ∀ file ∈ files, ∀ other ∈ others, other.1 = file.1 →
    (FileFacts.ofFile other.2).package? = (FileFacts.ofFile file.2).package?
  types : ∀ file ∈ files, ∀ other ∈ others, other.1 = file.1 →
    ∀ type, Yields type other.2 ↔ Yields type file.2
  methods : (headings others).Perm (headings files)

/-- Two records differ at most in the order of the methods. -/
structure IsAlike (record other : Implementation) : Prop where
  sameContract : other.contract = record.contract
  samePackage : other.packageName = record.packageName
  samePath : other.packagePath = record.packagePath
  sameFile : other.fileName = record.fileName
  sameState : other.isNew = record.isNew
  existing : ∀ name, name ∈ other.existing ↔ name ∈ record.existing

/-! ## What is collected -/

namespace PackageFacts

variable {packagePath type name : Text} {files : List (Text × SourceFile)}

/-- Takes in files that are parsed. -/
def takeIn (known : PackageFacts) (files : List (Text × SourceFile)) : PackageFacts :=
  files.foldl (fun known file => known.add file.1 (FileFacts.ofFile file.2)) known

theorem result_collect {entries : List (Text × Bytes)}
    (parsed : List.Forall₂ IsParsed entries files) :
    ∀ known, (collect packagePath known entries).result = .ok (takeIn known files) := by
  induction parsed with
  | nil => exact fun _ => rfl
  | @cons entry file entries files first _ induction =>
      intro known
      obtain ⟨same, accepted⟩ := first
      have shown : FileFacts.ofSource entry.2 = .ok (FileFacts.ofFile file.2) := by
        rw [FileFacts.ofSource, accepted]
        rfl
      rw [collect]
      simp only [shown]
      refine Attempt.result_andThen_eq_ok_iff.mpr ⟨(), rfl, ?_⟩
      rw [← same]
      exact induction _

theorem package?_takeIn :
    ∀ known : PackageFacts, (known.takeIn files).package? =
      known.package?.or (files.findSome? fun file => (FileFacts.ofFile file.2).package?) := by
  induction files with
  | nil => simp [takeIn]
  | cons file rest induction =>
      intro known
      rw [takeIn, List.foldl_cons, ← takeIn, induction, List.findSome?_cons, add, Option.or_assoc]
      congr 1
      cases (FileFacts.ofFile file.2).package? <;> rfl

theorem fileOf?_declareOne (fileName first : Text) (known : List (Text × Text)) :
    ((if known.any fun entry => entry.1 == first then known
        else known ++ [(first, fileName)]).find? fun entry => entry.1 == type).map Prod.snd =
      ((known.find? fun entry => entry.1 == type).map Prod.snd).or
        (if type = first then some fileName else none) := by
  by_cases same : type = first
  · subst same
    rw [if_pos rfl]
    split
    · rename_i present
      rw [List.any_eq_true, ← List.find?_isSome, Option.isSome_iff_exists] at present
      obtain ⟨entry, found⟩ := present
      simp [found]
    · rename_i absent
      rw [List.any_eq_true, ← List.find?_isSome, Option.not_isSome_iff_eq_none] at absent
      simp [List.find?_append, absent]
  · rw [if_neg same, Option.or_none]
    split
    · rfl
    · simp [List.find?_append, Ne.symm same]

theorem fileOf?_declare (fileName : Text) (types : List Text) :
    ∀ known : List (Text × Text),
      ((declare fileName types known).find? fun entry => entry.1 == type).map Prod.snd =
        ((known.find? fun entry => entry.1 == type).map Prod.snd).or
          (if type ∈ types then some fileName else none) := by
  induction types with
  | nil => simp [declare]
  | cons first rest induction =>
      intro known
      rw [declare, List.foldl_cons, ← declare, induction, fileOf?_declareOne, Option.or_assoc]
      by_cases same : type = first
      · simp [same]
      · simp [same]

theorem fileOf?_takeIn :
    ∀ known : PackageFacts, (known.takeIn files).fileOf? type =
      (known.fileOf? type).or
        ((files.find? fun file => decide (Yields type file.2)).map Prod.fst) := by
  induction files with
  | nil => simp [takeIn]
  | cons file rest induction =>
      intro known
      rw [takeIn, List.foldl_cons, ← takeIn, induction, List.find?_cons, fileOf?, add,
        fileOf?_declare, Option.or_assoc, ← fileOf?]
      by_cases yields : Yields type file.2
      · simp [yields, show type ∈ (FileFacts.ofFile file.2).typeNames from yields]
      · simp [yields, show type ∉ (FileFacts.ofFile file.2).typeNames from yields]

theorem mem_itemsUnder_takeIn :
    ∀ known : PackageFacts, name ∈ itemsUnder type (known.takeIn files).methods ↔
      name ∈ itemsUnder type known.methods ∨
        ∃ file ∈ files, Lists (FileFacts.ofFile file.2).methods type name := by
  induction files with
  | nil => simp [takeIn]
  | cons file rest induction =>
      intro known
      rw [takeIn, List.foldl_cons, ← takeIn, induction, List.exists_mem_cons_iff, ← or_assoc]
      exact or_congr_left (mem_itemsUnder_foldl _)

end PackageFacts

/-! ## Files by name -/

section Sorted

variable {disk : Disk} {directory : Text} {files ordered : List (Text × SourceFile)}

/-- The files come in the order of their names. -/
def AreSorted (ordered : List (Text × SourceFile)) : Prop :=
  ordered.Pairwise fun left right => (Text.order left.1 right.1).isLE = true

theorem isFirst_of_find? (sorted : AreSorted ordered) (same : ordered.Perm files)
    {has : SourceFile → Prop} [DecidablePred has] {file : Text × SourceFile}
    (found : ordered.find? (fun file => decide (has file.2)) = some file) :
    IsFirst files has file := by
  obtain ⟨hasIt, before, behind, rfl, none⟩ := List.find?_eq_some_iff_append.mp found
  refine ⟨same.mem_iff.mp (by simp), of_decide_eq_true hasIt, fun other member also => ?_⟩
  rcases List.mem_append.mp (same.mem_iff.mpr member) with early | late
  · have lacks := none other early
    simp [also] at lacks
  · rcases List.mem_cons.mp late with rfl | later
    · exact Std.ReflCmp.isLE_rfl
    · exact List.rel_of_pairwise_cons (List.pairwise_append.mp sorted).2.1 later

theorem map_fst_of_parsed {entries : List (Text × Bytes)}
    (parsed : List.Forall₂ IsParsed entries files) : files.map Prod.fst = entries.map Prod.fst := by
  induction parsed with
  | nil => rfl
  | cons first _ induction => rw [List.map_cons, List.map_cons, first.1, induction]

theorem exists_text_of_parsed {entries : List (Text × Bytes)}
    (parsed : List.Forall₂ IsParsed entries files) :
    ∀ file ∈ files, ∃ source, SourceFile.ofText? source = some file.2 := by
  induction parsed with
  | nil => simp
  | cons first _ induction =>
      exact List.forall_mem_cons.mpr ⟨⟨_, (SourceFile.text_of_ofBytes first.2).2⟩, induction⟩

theorem exists_parsed {entries : List (Text × Bytes)}
    (accepted : ∀ entry ∈ entries, (SourceFile.ofBytes entry.2).isOk = true) :
    ∃ files, List.Forall₂ IsParsed entries files := by
  induction entries with
  | nil => exact ⟨[], .nil⟩
  | cons entry rest induction =>
      obtain ⟨now, later⟩ := List.forall_mem_cons.mp accepted
      obtain ⟨files, parsed⟩ := induction later
      cases read : SourceFile.ofBytes entry.2 with
      | error fault => simp [read, Except.isOk, Except.toBool] at now
      | ok file => exact ⟨(entry.1, file) :: files, .cons ⟨rfl, read⟩ parsed⟩

theorem Disk.exists_holds {location : Location} (there : disk.isDirectory directory = true)
    (leads : disk.locate directory = .ok location)
    (accepted : ∀ entry ∈ (disk.filesIn location).filter fun entry => Go.isSourceName entry.1,
      (SourceFile.ofBytes entry.2).isOk = true) : ∃ files, disk.Holds directory files := by
  obtain ⟨files, parsed⟩ := exists_parsed accepted
  exact ⟨files, .present there leads (.refl _) parsed⟩

namespace Disk.Holds

theorem exists_ordered (holds : disk.Holds directory files) :
    ∃ ordered, List.Forall₂ IsParsed (Implementation.sourceFiles disk directory) ordered ∧
      ordered.Perm files ∧ AreSorted ordered := by
  cases holds with
  | missing nowhere =>
      refine ⟨[], ?_, .refl [], .nil⟩
      rw [Implementation.sourceFiles, if_neg (by simp [nowhere])]
      exact .nil
  | @present location listing _ there leads listed parsed =>
      have read : Implementation.sourceFiles disk directory =
          Sorting.sort (fun left right => Text.order left.1 right.1)
            ((disk.filesIn location).filter fun file => Go.isSourceName file.1) := by
        rw [Implementation.sourceFiles, if_pos there]
        simp only [leads]
      have perm := read ▸ (Sorting.sort_perm _ _).trans (listed.symm.filter _)
      obtain ⟨ordered, first, second⟩ := List.perm_comp_forall₂ perm parsed
      have : Std.TransCmp fun left right : Text × Bytes => Text.order left.1 right.1 :=
        Sorting.transCmp_of_key Text.order Prod.fst
      have names : (ordered.map Prod.fst).Pairwise fun left right =>
          (Text.order left right).isLE = true := by
        rw [map_fst_of_parsed first, read]
        exact List.pairwise_map.mpr (Sorting.pairwise_sort _ _)
      exact ⟨ordered, first, second, List.pairwise_map.mp names⟩

end Disk.Holds

end Sorted

/-! ## Records -/

section Records

variable {files ordered : List (Text × SourceFile)} {packageName packagePath : Text}

theorem isPackageName_takeIn (sorted : AreSorted ordered) (same : ordered.Perm files)
    (default : Text) :
    IsPackageName files default ((PackageFacts.takeIn {} ordered).package?.getD default) := by
  rw [PackageFacts.package?_takeIn, Option.none_or]
  cases found : ordered.findSome? fun file => (FileFacts.ofFile file.2).package? with
  | none =>
      refine .default fun file member => ?_
      exact List.findSome?_eq_none_iff.mp found file (same.mem_iff.mpr member)
  | some name =>
      obtain ⟨before, file, behind, rfl, named, none⟩ := List.findSome?_eq_some_iff.mp found
      refine .given (isFirst_of_find? sorted same ?_) named
      rw [List.find?_eq_some_iff_append]
      exact ⟨by simp [named], before, behind, rfl, fun other early => by simp [none other early]⟩

theorem isRecord_implementation (sorted : AreSorted ordered) (same : ordered.Perm files)
    (contract : Contract) :
    IsRecord files packageName packagePath contract
      ((PackageFacts.takeIn {} ordered).implementation packageName packagePath contract) := by
  set facts := PackageFacts.takeIn {} ordered
  have place : facts.fileOf? contract.backingName =
      (ordered.find? fun file => decide (Yields contract.backingName file.2)).map Prod.fst := by
    rw [PackageFacts.fileOf?_takeIn]
    rfl
  cases found : ordered.find? fun file => decide (Yields contract.backingName file.2) with
  | none =>
      have nowhere : ¬ ∃ file ∈ files, Yields contract.backingName file.2 := by
        rintro ⟨file, member, yields⟩
        have lacks := List.find?_eq_none.mp found file (same.mem_iff.mpr member)
        exact lacks (decide_eq_true yields)
      rw [found] at place
      rw [PackageFacts.implementation, place]
      exact ⟨rfl, rfl, rfl,
        ⟨fun old => absurd old Bool.noConfusion, fun known => absurd known nowhere⟩,
        fun old => absurd old Bool.noConfusion, fun old => absurd old Bool.noConfusion,
        fun _ => ⟨rfl, rfl⟩⟩
  | some file =>
      have first := isFirst_of_find? sorted same found
      rw [found] at place
      rw [PackageFacts.implementation, place]
      refine ⟨rfl, rfl, rfl, ⟨fun _ => ⟨file, first.member, first.hasIt⟩, fun _ => rfl⟩,
        fun _ => ⟨file, first, rfl⟩, fun _ name => ?_, fun new => absurd new Bool.noConfusion⟩
      have nothing : name ∉ itemsUnder contract.backingName ({} : PackageFacts).methods :=
        List.not_mem_nil
      show name ∈ itemsUnder contract.backingName facts.methods ↔ _
      rw [PackageFacts.mem_itemsUnder_takeIn, or_iff_right nothing]
      exact exists_congr fun other => and_congr_left fun _ => same.mem_iff

theorem scan_eq_of_ordered {disk : Disk} {root packagePath : Text}
    (parsed : List.Forall₂ IsParsed
      (Implementation.sourceFiles disk (Path.within root packagePath)) ordered)
    (first : Contract) (rest : List Contract) :
    (Implementation.scan disk root packagePath (first :: rest)).result =
      .ok ((first :: rest).map ((PackageFacts.takeIn {} ordered).implementation
        ((PackageFacts.takeIn {} ordered).package?.getD
          (implementationPackageName first.packageName)) packagePath)) := by
  rw [Implementation.scan]
  exact Attempt.result_andThen_eq_ok_iff.mpr ⟨_, PackageFacts.result_collect parsed {}, rfl⟩

/-- What is found are the records of the contracts. -/
theorem exists_areRecords {disk : Disk} {root packagePath : Text}
    (holds : disk.Holds (Path.within root packagePath) files) (first : Contract)
    (rest : List Contract) :
    ∃ records, (Implementation.scan disk root packagePath (first :: rest)).result = .ok records ∧
      AreRecords files packagePath first rest records := by
  obtain ⟨ordered, parsed, same, sorted⟩ := holds.exists_ordered
  refine ⟨_, scan_eq_of_ordered parsed first rest, _, isPackageName_takeIn sorted same _, ?_⟩
  rw [List.forall₂_map_right_iff, List.forall₂_same]
  exact fun contract _ => isRecord_implementation sorted same contract

end Records

/-! ## Moved methods -/

section Moved

variable {files others : List (Text × SourceFile)}

theorem shownOn?_eq_of_heading {declaration other : Tree}
    (same : heading declaration = heading other) : shownOn? declaration = shownOn? other := by
  have types : (SourceFile.receiverTypes declaration).map Tree.code =
      (SourceFile.receiverTypes other).map Tree.code := congrArg Prod.fst same
  have last (tree : Tree) : shownOn? tree =
      ((SourceFile.receiverTypes tree).map Tree.code).getLast?.map FileFacts.receiverName := by
    rw [shownOn?, List.getLast?_map, Option.map_map]
    rfl
  rw [last, last, types]

theorem showsMethod_iff_of_heading {declaration other : Tree} {type name : Text}
    (same : heading declaration = heading other) :
    ShowsMethod declaration type name ↔ ShowsMethod other type name := by
  have names : (declaration.parts .name).map Tree.code = (other.parts .name).map Tree.code :=
    congrArg Prod.snd same
  rw [ShowsMethod, ShowsMethod, shownOn?_eq_of_heading same, names]

/-- The headings tell which methods the files show. -/
theorem exists_lists_iff (read : ∀ file ∈ files, ∃ source, SourceFile.ofText? source = some file.2)
    {type name : Text} :
    (∃ file ∈ files, Lists (FileFacts.ofFile file.2).methods type name) ↔
      ∃ entry ∈ headings files, ∃ declaration, heading declaration = entry ∧
        ShowsMethod declaration type name := by
  constructor
  · rintro ⟨file, member, listed⟩
    obtain ⟨source, known⟩ := read file member
    obtain ⟨declaration, top, shown⟩ := (FileFacts.lists_ofFile known).mp listed
    refine ⟨heading declaration, ?_, declaration, rfl, shown⟩
    exact List.mem_flatMap.mpr ⟨file, member, List.mem_map_of_mem top⟩
  · rintro ⟨entry, listed, declaration, rfl, shown⟩
    obtain ⟨file, member, top⟩ := List.mem_flatMap.mp listed
    obtain ⟨other, declared, same⟩ := List.mem_map.mp top
    obtain ⟨source, known⟩ := read file member
    refine ⟨file, member, (FileFacts.lists_ofFile known).mpr ⟨other, declared, ?_⟩⟩
    exact (showsMethod_iff_of_heading same).mpr shown

namespace IsMoved

variable (moved : IsMoved files others)
include moved

theorem symm : IsMoved others files where
  names name := (moved.names name).symm
  packages file member other also same := (moved.packages other also file member same.symm).symm
  types file member other also same type :=
    (moved.types other also file member same.symm type).symm
  methods := moved.methods.symm

theorem exists_of_mem {file : Text × SourceFile} (member : file ∈ files) :
    ∃ other ∈ others, other.1 = file.1 := by
  have named := (moved.names file.1).mpr (List.mem_map_of_mem member)
  exact List.mem_map.mp named

theorem name_eq_of_isFirst {has : SourceFile → Prop} {file other : Text × SourceFile}
    (kept : ∀ file ∈ files, ∀ other ∈ others, other.1 = file.1 → (has other.2 ↔ has file.2))
    (first : IsFirst files has file) (otherFirst : IsFirst others has other) :
    other.1 = file.1 := by
  obtain ⟨there, one, oneName⟩ := moved.exists_of_mem first.member
  obtain ⟨back, two, twoName⟩ := moved.symm.exists_of_mem otherFirst.member
  have below := otherFirst.least there one ((kept _ first.member _ one oneName).mpr first.hasIt)
  have above := first.least back two
    ((kept _ two _ otherFirst.member twoName.symm).mp otherFirst.hasIt)
  rw [oneName] at below
  rw [twoName] at above
  exact Std.LawfulEqCmp.eq_of_compare (Std.OrientedCmp.isLE_antisymm below above)

theorem packageName_eq {default name otherName : Text}
    (named : IsPackageName files default name)
    (otherNamed : IsPackageName others default otherName) : otherName = name := by
  have kept : ∀ file ∈ files, ∀ other ∈ others, other.1 = file.1 →
      ((FileFacts.ofFile other.2).package? ≠ none ↔ (FileFacts.ofFile file.2).package? ≠ none) := by
    intro file member other also same
    rw [moved.packages file member other also same]
  cases named with
  | @given file _ first known =>
      cases otherNamed with
      | @given other _ otherFirst otherKnown =>
          have same := moved.name_eq_of_isFirst kept first otherFirst
          have equal := moved.packages file first.member other otherFirst.member same
          rw [known, otherKnown] at equal
          exact Option.some.inj equal
      | default nameless =>
          obtain ⟨other, also, same⟩ := moved.exists_of_mem first.member
          exact absurd (nameless other also) ((kept _ first.member _ also same).mpr first.hasIt)
  | default nameless =>
      cases otherNamed with
      | @given other _ otherFirst otherKnown =>
          obtain ⟨file, member, same⟩ := moved.symm.exists_of_mem otherFirst.member
          exact absurd (nameless file member)
            ((kept _ member _ otherFirst.member same.symm).mp otherFirst.hasIt)
      | default _ => rfl

theorem yields_iff {type : Text} :
    (∃ other ∈ others, Yields type other.2) ↔ ∃ file ∈ files, Yields type file.2 := by
  constructor
  · rintro ⟨other, also, yields⟩
    obtain ⟨file, member, same⟩ := moved.symm.exists_of_mem also
    exact ⟨file, member, (moved.types file member other also same.symm type).mp yields⟩
  · rintro ⟨file, member, yields⟩
    obtain ⟨other, also, same⟩ := moved.exists_of_mem member
    exact ⟨other, also, (moved.types file member other also same type).mpr yields⟩

/-- Moving methods changes nothing but the order in which they are known. -/
theorem isAlike (read : ∀ file ∈ files, ∃ source, SourceFile.ofText? source = some file.2)
    (readOthers : ∀ file ∈ others, ∃ source, SourceFile.ofText? source = some file.2)
    {packageName packagePath : Text} {contract : Contract} {record other : Implementation}
    (isRecord : IsRecord files packageName packagePath contract record)
    (alsoRecord : IsRecord others packageName packagePath contract other) :
    IsAlike record other := by
  have known : other.isNew = false ↔ record.isNew = false := by
    rw [alsoRecord.known, isRecord.known, moved.yields_iff]
  have place : other.fileName = record.fileName ∧
      ∀ name, name ∈ other.existing ↔ name ∈ record.existing := by
    cases state : record.isNew with
    | true =>
        have alsoNew : other.isNew = true :=
          Bool.eq_true_of_not_eq_false fun old => by simp [known.mp old] at state
        rw [(isRecord.new state).1, (isRecord.new state).2, (alsoRecord.new alsoNew).1,
          (alsoRecord.new alsoNew).2]
        exact ⟨rfl, fun _ => Iff.rfl⟩
    | false =>
        obtain ⟨file, first, named⟩ := isRecord.place state
        obtain ⟨there, otherFirst, otherNamed⟩ := alsoRecord.place (known.mpr state)
        have kept := fun file member other also same =>
          moved.types file member other also same contract.backingName
        refine ⟨?_, fun name => ?_⟩
        · rw [named, otherNamed, moved.name_eq_of_isFirst kept first otherFirst]
        · rw [isRecord.union state, alsoRecord.union (known.mpr state), exists_lists_iff read,
            exists_lists_iff readOthers]
          exact exists_congr fun entry => and_congr_left fun _ => moved.methods.mem_iff
  have state : other.isNew = record.isNew := by
    rw [Bool.eq_iff_iff, ← Bool.not_eq_false, ← Bool.not_eq_false, not_iff_not, known]
  exact ⟨alsoRecord.ofContract.trans isRecord.ofContract.symm,
    alsoRecord.ofPackage.trans isRecord.ofPackage.symm,
    alsoRecord.atPath.trans isRecord.atPath.symm, place.1, state, place.2⟩

theorem areAlike (read : ∀ file ∈ files, ∃ source, SourceFile.ofText? source = some file.2)
    (readOthers : ∀ file ∈ others, ∃ source, SourceFile.ofText? source = some file.2)
    {packageName packagePath : Text} {contracts : List Contract} {records : List Implementation}
    (each : List.Forall₂ (IsRecord files packageName packagePath) contracts records) :
    ∀ {alike}, List.Forall₂ (IsRecord others packageName packagePath) contracts alike →
      List.Forall₂ IsAlike records alike := by
  induction each with
  | nil =>
      intro alike eachOther
      cases eachOther
      exact .nil
  | cons isRecord _ induction =>
      intro alike eachOther
      cases eachOther with
      | cons alsoRecord later =>
          exact .cons (moved.isAlike read readOthers isRecord alsoRecord) (induction later)

end IsMoved

end Moved

/-! ## The scan -/

namespace Disk.Holds

variable {disk : Disk} {directory : Text} {files : List (Text × SourceFile)}

theorem exists_text (holds : disk.Holds directory files) :
    ∀ file ∈ files, ∃ source, SourceFile.ofText? source = some file.2 := by
  obtain ⟨ordered, parsed, same, _⟩ := holds.exists_ordered
  exact fun file member => exists_text_of_parsed parsed file (same.mem_iff.mpr member)

theorem sourceFiles_of_nil (holds : disk.Holds directory []) :
    Implementation.sourceFiles disk directory = [] := by
  obtain ⟨ordered, parsed, same, _⟩ := holds.exists_ordered
  rw [List.perm_nil.mp same, List.forall₂_nil_right_iff] at parsed
  exact parsed

end Disk.Holds

namespace Implementation

variable {disk : Disk} {root packagePath : Text} {files : List (Text × SourceFile)}

theorem sourceFiles_eq_of_perm {other : Disk} (isMap : disk.IsMap)
    (same : other.entries.Perm disk.entries) (directory : Text) :
    sourceFiles other directory = sourceFiles disk directory := by
  rw [sourceFiles, sourceFiles, isMap.isDirectory_eq same, isMap.locate_eq same]
  split
  · split
    · rfl
    · rename_i location leads
      have names : (((other.filesIn location).filter fun file =>
          Go.isSourceName file.1).map Prod.fst).Nodup :=
        ((isMap.of_perm same).nodup_filesIn location).sublist (List.filter_sublist.map Prod.fst)
      exact Sorting.sort_eq_of_nodup Text.order Prod.fst names
        ((Disk.IsMap.filesIn_perm same location).filter _)
  · rfl

/-- A scan finds the records of all contracts, whichever way the directory is listed
and whichever files show the methods; a directory that is not there counts as empty. -/
theorem scan_finds (isMap : disk.IsMap)
    (holds : disk.Holds (Path.within root packagePath) files) (first : Contract)
    (rest : List Contract) :
    ∃ records, (scan disk root packagePath (first :: rest)).result = .ok records ∧
      AreRecords files packagePath first rest records ∧
      (∀ other : Disk, other.entries.Perm disk.entries →
        scan other root packagePath (first :: rest) =
          scan disk root packagePath (first :: rest)) ∧
      (∀ (other : Disk) (others : List (Text × SourceFile)),
        other.Holds (Path.within root packagePath) others → IsMoved files others →
          ∃ alike, (scan other root packagePath (first :: rest)).result = .ok alike ∧
            List.Forall₂ IsAlike records alike) ∧
      (files = [] → ∀ other : Disk, other.isDirectory (Path.within root packagePath) = false →
        scan other root packagePath (first :: rest) =
          scan disk root packagePath (first :: rest)) := by
  obtain ⟨records, result, areRecords⟩ := exists_areRecords holds first rest
  refine ⟨records, result, areRecords, fun other same => ?_, fun other others also moved => ?_,
    fun empty other nowhere => ?_⟩
  · rw [scan, scan, sourceFiles_eq_of_perm isMap same]
  · obtain ⟨alike, found, alsoRecords⟩ := exists_areRecords also first rest
    refine ⟨alike, found, ?_⟩
    obtain ⟨packageName, named, each⟩ := areRecords
    obtain ⟨otherName, otherNamed, eachOther⟩ := alsoRecords
    obtain rfl := moved.packageName_eq named otherNamed
    exact moved.areAlike holds.exists_text also.exists_text each eachOther
  · subst empty
    rw [scan, scan, holds.sourceFiles_of_nil, (Disk.Holds.missing nowhere).sourceFiles_of_nil]

/-- The disk with a type and a method on it in two files, its entries listed from the last. -/
def turnedDisk : Disk :=
  ⟨spreadDisk.entries.reverse⟩

/-- A type and a method on it are found in two files, whichever is listed first. -/
theorem scan_finds_spread : ∃ files records, spreadDisk.Holds (Path.within "/p" "i") files ∧
    (scan turnedDisk "/p" "i" [pairContract]).result = .ok records ∧
    AreRecords files "i" pairContract [] records := by
  have there : spreadDisk.isDirectory (Path.within "/p" "i") = true := by decide +kernel
  have leads : spreadDisk.locate (Path.within "/p" "i") = .ok ["p", "i"] := by decide +kernel
  obtain ⟨files, holds⟩ := Disk.exists_holds there leads (by decide +kernel)
  have isMap : spreadDisk.IsMap := by decide +kernel
  obtain ⟨records, result, found, turned, _⟩ := scan_finds isMap holds pairContract []
  refine ⟨files, records, holds, ?_, found⟩
  rw [turned turnedDisk (List.reverse_perm _), result]

end Implementation

end Scaffold
