import Mathlib.Data.List.Nodup
import Scaffold.Implementation.Scan
import Scaffold.Proofs.Attempt
import Scaffold.Proofs.Go.Methods

/-!
# Types and methods that an implementation package shows

The captures of methods come in the order of their declarations, and those of
other things between them change nothing.  So a file shows a method on the type
of its last receiver, and a package shows what its files show.
-/

namespace Scaffold

/-! ## Items under keys -/

section Items

variable {key other item : Text} {added : List Text} {entries : List (Text × List Text)}

theorem mem_withItem {items : List Text} : item ∈ withItem other items ↔ item ∈ items ∨ item = other := by
  unfold withItem
  split
  · rename_i present
    exact ⟨.inl, fun either => either.elim id fun same => same ▸ present⟩
  · rw [List.mem_append, List.mem_singleton]

theorem mem_foldl_withItem :
    ∀ items : List Text,
      item ∈ added.foldl (fun items item => withItem item items) items ↔
        item ∈ items ∨ item ∈ added := by
  induction added with
  | nil => simp
  | cons first rest induction =>
      intro items
      rw [List.foldl_cons, induction, mem_withItem, List.mem_cons, or_assoc]

/-- Some entry has the item under the key. -/
def Lists (entries : List (Text × List Text)) (key item : Text) : Prop :=
  ∃ entry ∈ entries, entry.1 = key ∧ item ∈ entry.2

theorem lists_cons {entry : Text × List Text} :
    Lists (entry :: entries) key item ↔ (entry.1 = key ∧ item ∈ entry.2) ∨ Lists entries key item := by
  simp [Lists]

theorem lists_withItemsUnder :
    Lists (withItemsUnder other added entries) key item ↔
      Lists entries key item ∨ (key = other ∧ item ∈ added) := by
  induction entries with
  | nil =>
      rw [withItemsUnder, lists_cons, mem_foldl_withItem]
      simp [Lists, eq_comm]
  | cons entry rest induction =>
      rw [withItemsUnder]
      split
      · rename_i same
        subst same
        rw [lists_cons, lists_cons, mem_foldl_withItem]
        rw [and_or_left, or_assoc, or_assoc, or_comm (b := Lists rest key item), eq_comm (a := key)]
      · rw [lists_cons, lists_cons, induction, or_assoc]

theorem itemsUnder_cons (entry : Text × List Text) :
    itemsUnder key (entry :: entries) = if entry.1 = key then entry.2 else itemsUnder key entries := by
  rw [itemsUnder, List.find?_cons]
  by_cases same : entry.1 = key
  · simp [same]
  · rw [if_neg same, beq_false_of_ne same]
    rfl

theorem mem_itemsUnder_withItemsUnder :
    item ∈ itemsUnder key (withItemsUnder other added entries) ↔
      item ∈ itemsUnder key entries ∨ (key = other ∧ item ∈ added) := by
  induction entries with
  | nil =>
      rw [withItemsUnder, itemsUnder_cons]
      by_cases same : other = key
      · rw [if_pos same, mem_foldl_withItem]
        simp [itemsUnder, same]
      · rw [if_neg same]
        simp [Ne.symm same]
  | cons entry rest induction =>
      rw [withItemsUnder, itemsUnder_cons]
      split
      · rename_i here
        subst here
        rw [itemsUnder_cons]
        by_cases same : entry.1 = key
        · rw [if_pos same, if_pos same, mem_foldl_withItem]
          simp [same]
        · rw [if_neg same, if_neg same]
          simp [Ne.symm same]
      · rename_i elsewhere
        rw [itemsUnder_cons]
        split
        · rename_i same
          simp [← same, elsewhere]
        · exact induction

theorem mem_itemsUnder_foldl {new : List (Text × List Text)} :
    ∀ entries : List (Text × List Text),
      item ∈ itemsUnder key
          (new.foldl (fun entries entry => withItemsUnder entry.1 entry.2 entries) entries) ↔
        item ∈ itemsUnder key entries ∨ Lists new key item := by
  induction new with
  | nil => simp [Lists]
  | cons entry rest induction =>
      intro entries
      rw [List.foldl_cons, induction, mem_itemsUnder_withItemsUnder, lists_cons, or_assoc,
        eq_comm (a := key)]

end Items

/-! ## Captures of methods -/

namespace Go

instance : Std.TransCmp Capture.order := by
  have starts := Sorting.transCmp_of_key Ord.compare Capture.start
  have ranks := Sorting.transCmp_of_key Ord.compare fun capture : Capture => capture.label.rank
  exact inferInstanceAs (Std.TransCmp (compareLex
    (fun left right : Capture => compare left.start right.start)
    (fun left right : Capture => compare left.label.rank right.label.rank)))

/-- The event is part of what shows a method. -/
def Event.isMethodic (event : Event) : Bool :=
  event.label == .receiver || event.label == .method

theorem Capture.start_le_of_order {left right : Capture}
    (before : (Capture.order left right).isLE = true) : left.start ≤ right.start := by
  rw [Capture.order, Ordering.isLE_then_iff_or] at before
  rcases before with less | ⟨same, _⟩
  · exact Nat.le_of_lt (Nat.compare_eq_lt.mp less)
  · exact Nat.le_of_eq (Nat.compare_eq_eq.mp same)

namespace SourceFile

variable {source : Text} {file : SourceFile}

theorem isMethodic_backingMethodCaptures (declaration : Tree) :
    ∀ capture ∈ backingMethodCaptures declaration, capture.isMethodic = true := by
  intro capture member
  unfold backingMethodCaptures at member
  split at member
  · exact absurd member List.not_mem_nil
  · rcases List.mem_append.mp member with type | named
    · obtain ⟨tree, _, rfl⟩ := List.mem_map.mp type
      rfl
    · obtain ⟨tree, _, rfl⟩ := List.mem_map.mp named
      rfl

theorem filter_isMethodic_flatMap {label : Label}
    (other : (label == .receiver || label == .method) = false) (trees : List Tree)
    (parts : Tree → List Tree) :
    ((trees.flatMap fun tree => (parts tree).map (Capture.ofTree label)).filter
      fun capture => capture.isMethodic) = [] := by
  rw [List.filter_eq_nil_iff]
  intro capture member
  obtain ⟨tree, _, part⟩ := List.mem_flatMap.mp member
  obtain ⟨name, _, rfl⟩ := List.mem_map.mp part
  exact ne_true_of_eq_false other

/-- The captures of a file without those of other things are those of its methods,
one declaration after the other. -/
theorem filter_implementationCaptures (known : ofText? source = some file) :
    (file.implementationCaptures.filter fun capture => capture.isMethodic) =
      (file.topLevel .methodDeclaration).flatMap backingMethodCaptures := by
  have starts := pairwise_start_methodCaptures known
  have perm : (file.implementationCaptures.filter fun capture => capture.isMethodic).Perm
      ((file.topLevel .methodDeclaration).flatMap backingMethodCaptures) := by
    refine ((Sorting.sort_perm _ _).filter _).trans (List.Perm.of_eq ?_)
    rw [List.filter_append, List.filter_append]
    have packages : (file.packageCaptures.filter fun capture => capture.isMethodic) = [] :=
      filter_isMethodic_flatMap rfl _ _
    have types : (((file.inside .typeSpec).flatMap fun spec =>
        (namesEndingIn Contract.backingSuffix spec).map (Capture.ofTree .typeName)).filter
          fun capture => capture.isMethodic) = [] :=
      filter_isMethodic_flatMap rfl _ _
    rw [packages, types, List.nil_append, List.nil_append, List.filter_eq_self]
    intro capture member
    obtain ⟨declaration, _, captured⟩ := List.mem_flatMap.mp member
    exact isMethodic_backingMethodCaptures declaration capture captured
  have sorted : (file.implementationCaptures.filter fun capture => capture.isMethodic).Pairwise
      fun left right => left.start ≤ right.start :=
    ((Sorting.pairwise_sort Capture.order _).imp Capture.start_le_of_order).filter _
  refine List.Perm.eq_of_pairwise (fun left right one two first second => ?_) sorted
    (starts.imp Nat.le_of_lt) perm
  -- No two captures of methods start at one place.
  have different : (((file.topLevel .methodDeclaration).flatMap backingMethodCaptures).map
      Capture.start).Nodup :=
    List.pairwise_map.mpr (starts.imp Nat.ne_of_lt)
  exact List.inj_on_of_nodup_map different (perm.mem_iff.mp one) two
    (Nat.le_antisymm first second)

end SourceFile

end Go

open Go (Event SourceFile Tree)

/-- The type on which a method declaration shows a method: that of its last
receiver. -/
def shownOn? (declaration : Tree) : Option Text :=
  (SourceFile.receiverTypes declaration).getLast?.map fun type => FileFacts.receiverName type.code

/-- The declaration shows a method of a name on a type. -/
def ShowsMethod (declaration : Tree) (type name : Text) : Prop :=
  type ≠ [] ∧ shownOn? declaration = some type ∧ name ∈ (declaration.parts .name).map Tree.code

instance (declaration : Tree) (type name : Text) : Decidable (ShowsMethod declaration type name) :=
  inferInstanceAs (Decidable (_ ∧ _ ∧ _))

namespace FileFacts

variable {facts other : FileFacts} {type name : Text}

/-! ## Methods of a file -/

/-- The facts do not differ in what methods depend on. -/
def Agrees (facts other : FileFacts) : Prop :=
  facts.receiver? = other.receiver? ∧ facts.methods = other.methods

theorem agrees_step (agrees : facts.Agrees other) (event : Event) :
    (facts.step event).Agrees (other.step event) := by
  obtain ⟨receivers, methods⟩ := agrees
  unfold step
  split
  · exact ⟨receivers, methods⟩
  · exact ⟨receivers, methods⟩
  · exact ⟨rfl, methods⟩
  · rw [receivers, methods]
    split
    · exact ⟨receivers, methods⟩
    · exact ⟨receivers, methods⟩
    · exact ⟨rfl, rfl⟩
  · exact ⟨receivers, methods⟩

theorem agrees_step_self {event : Event} (different : event.isMethodic = false) :
    (facts.step event).Agrees facts := by
  unfold step
  split <;> first | exact ⟨rfl, rfl⟩ | (rename_i label; simp [Event.isMethodic, label] at different)

theorem agrees_foldl (events : List Event) :
    ∀ {facts other : FileFacts}, facts.Agrees other →
      (events.foldl step facts).Agrees ((events.filter Event.isMethodic).foldl step other) := by
  induction events with
  | nil => exact fun agrees => agrees
  | cons event rest induction =>
      intro facts other agrees
      rw [List.foldl_cons]
      cases kind : event.isMethodic with
      | true =>
          rw [List.filter_cons_of_pos kind, List.foldl_cons]
          exact induction (agrees_step agrees event)
      | false =>
          rw [List.filter_cons_of_neg (by simp [kind])]
          have same : (facts.step event).Agrees facts := agrees_step_self kind
          exact induction ⟨same.1.trans agrees.1, same.2.trans agrees.2⟩

theorem methods_foldl_receivers (types : List Text) :
    ∀ facts : FileFacts,
      ((types.map fun type => (⟨.receiver, type⟩ : Event)).foldl step facts).methods =
        facts.methods := by
  induction types with
  | nil => exact fun _ => rfl
  | cons first rest induction => exact fun facts => induction _

theorem lists_foldl_methods {receiver : Text} (names : List Text) :
    ∀ {facts : FileFacts}, facts.receiver? = some receiver →
      (Lists ((names.map fun name => (⟨.method, name⟩ : Event)).foldl step facts).methods type name ↔
        Lists facts.methods type name ∨ type ≠ [] ∧ type = receiver ∧ name ∈ names) := by
  induction names with
  | nil => simp
  | cons first rest induction =>
      intro facts known
      rw [List.map_cons, List.foldl_cons]
      cases receiver with
      | nil =>
          have kept : facts.step ⟨.method, first⟩ = facts := by
            simp only [step, known]
          have empty (names : List Text) : ¬ (type ≠ [] ∧ type = [] ∧ name ∈ names) :=
            fun shown => shown.1 shown.2.1
          rw [kept, induction known, or_iff_left (empty rest), or_iff_left (empty _)]
      | cons character letters =>
          have added : (facts.step ⟨.method, first⟩).methods =
              withItemsUnder (character :: letters) [first] facts.methods := by
            simp only [step, known]
          have still : (facts.step ⟨.method, first⟩).receiver? = some (character :: letters) := by
            simp only [step, known]
          have some : character :: letters ≠ [] := List.cons_ne_nil _ _
          rw [induction still, added, lists_withItemsUnder, or_assoc]
          refine or_congr_right ?_
          constructor
          · rintro (⟨rfl, now⟩ | ⟨_, rfl, later⟩)
            · exact ⟨some, rfl, List.mem_cons.mpr (.inl (List.mem_singleton.mp now))⟩
            · exact ⟨some, rfl, List.mem_cons_of_mem _ later⟩
          · rintro ⟨_, rfl, listed⟩
            rcases List.mem_cons.mp listed with now | later
            · exact .inl ⟨rfl, List.mem_singleton.mpr now⟩
            · exact .inr ⟨some, rfl, later⟩

/-- A declaration shows its name on the type of its last receiver. -/
theorem lists_foldl_declaration (declaration : Tree) (facts : FileFacts) :
    Lists (((SourceFile.backingMethodCaptures declaration).map Go.Capture.toEvent).foldl step
        facts).methods type name ↔
      Lists facts.methods type name ∨ ShowsMethod declaration type name := by
  unfold SourceFile.backingMethodCaptures
  split
  · rename_i none
    simp [ShowsMethod, shownOn?, none]
  · rename_i filled
    obtain ⟨front, last, same⟩ := (List.eq_nil_or_concat _).resolve_left filled
    have receivers : ((SourceFile.receiverTypes declaration).map (Go.Capture.ofTree .receiver)).map
        Go.Capture.toEvent =
        ((front.map Tree.code).map fun type => ⟨.receiver, type⟩) ++ [⟨.receiver, last.code⟩] := by
      simp [same, Go.Capture.ofTree, Function.comp_def]
    have names : ((declaration.parts .name).map (Go.Capture.ofTree .method)).map
        Go.Capture.toEvent =
        ((declaration.parts .name).map Tree.code).map fun name => ⟨.method, name⟩ := by
      simp [Go.Capture.ofTree, Function.comp_def]
    have shown : shownOn? declaration = some (receiverName last.code) := by
      simp [shownOn?, same]
    rw [List.map_append, List.foldl_append, receivers, names, List.foldl_append, List.foldl_cons,
      List.foldl_nil]
    set before := ((front.map Tree.code).map fun type => (⟨.receiver, type⟩ : Event)).foldl step
      facts
    have known : (before.step ⟨.receiver, last.code⟩).receiver? = some (receiverName last.code) :=
      rfl
    have methods : (before.step ⟨.receiver, last.code⟩).methods = facts.methods := by
      rw [← methods_foldl_receivers (front.map Tree.code) facts]
      rfl
    rw [lists_foldl_methods _ known, methods, ShowsMethod, shown, Option.some.injEq, eq_comm (a := type)]

theorem lists_foldl_declarations (declarations : List Tree) :
    ∀ facts : FileFacts,
      Lists (((declarations.flatMap SourceFile.backingMethodCaptures).map
          Go.Capture.toEvent).foldl step facts).methods type name ↔
        Lists facts.methods type name ∨ ∃ declaration ∈ declarations, ShowsMethod declaration type name := by
  induction declarations with
  | nil => simp
  | cons declaration rest induction =>
      intro facts
      rw [List.flatMap_cons, List.map_append, List.foldl_append, induction,
        lists_foldl_declaration, or_assoc, List.exists_mem_cons_iff]

theorem lists_ofFile {source : Text} {file : SourceFile}
    (known : SourceFile.ofText? source = some file) :
    Lists (ofFile file).methods type name ↔
      ∃ declaration ∈ file.topLevel .methodDeclaration, ShowsMethod declaration type name := by
  have methodic : (file.implementationCaptures.map Go.Capture.toEvent).filter Event.isMethodic =
      ((file.topLevel .methodDeclaration).flatMap SourceFile.backingMethodCaptures).map
        Go.Capture.toEvent := by
    rw [List.filter_map, ← SourceFile.filter_implementationCaptures known]
    rfl
  have start : ({} : FileFacts).Agrees {} := ⟨rfl, rfl⟩
  have agrees := agrees_foldl (file.implementationCaptures.map Go.Capture.toEvent) start
  rw [ofFile, ofEvents, agrees.2, methodic, lists_foldl_declarations]
  simp [Lists]

/-! ## Types of a file -/

theorem typeNames_step (facts : FileFacts) (event : Event) :
    (facts.step event).typeNames =
      if event.label = .typeName then withItem event.text facts.typeNames
      else facts.typeNames := by
  unfold step
  split
  · simp_all
  · simp_all
  · simp_all
  · split <;> simp_all
  · simp_all

theorem mem_typeNames_foldl (events : List Event) :
    ∀ facts : FileFacts, type ∈ (events.foldl step facts).typeNames ↔
      type ∈ facts.typeNames ∨ ⟨.typeName, type⟩ ∈ events := by
  induction events with
  | nil => simp
  | cons event rest induction =>
      intro facts
      obtain ⟨label, text⟩ := event
      rw [List.foldl_cons, induction, List.mem_cons, ← or_assoc, typeNames_step]
      by_cases isType : label = .typeName
      · simp [isType, mem_withItem]
      · simp [isType, Ne.symm isType]

theorem mem_typeNames_ofFile {file : SourceFile} :
    type ∈ (ofFile file).typeNames ↔ ∃ spec ∈ file.inside .typeSpec,
      type ∈ (SourceFile.namesEndingIn Contract.backingSuffix spec).map Tree.code := by
  rw [ofFile, ofEvents, mem_typeNames_foldl, or_iff_right List.not_mem_nil]
  constructor
  · intro captured
    obtain ⟨capture, listed, same⟩ := List.mem_map.mp captured
    rcases List.mem_append.mp ((Sorting.mem_sort _).mp listed) with early | method
    · rcases List.mem_append.mp early with package | spec
      · obtain ⟨clause, _, named⟩ := List.mem_flatMap.mp package
        obtain ⟨tree, _, rfl⟩ := List.mem_map.mp named
        exact absurd (congrArg Event.label same) (by simp [Go.Capture.ofTree])
      · obtain ⟨declared, inside, named⟩ := List.mem_flatMap.mp spec
        obtain ⟨name, ends, rfl⟩ := List.mem_map.mp named
        exact ⟨declared, inside, List.mem_map.mpr ⟨name, ends, congrArg Event.text same⟩⟩
    · obtain ⟨declaration, _, taken⟩ := List.mem_flatMap.mp method
      have methodic := SourceFile.isMethodic_backingMethodCaptures declaration capture taken
      rw [same] at methodic
      exact absurd methodic Bool.false_ne_true
  · rintro ⟨spec, inside, named⟩
    obtain ⟨name, ends, rfl⟩ := List.mem_map.mp named
    refine List.mem_map.mpr ⟨Go.Capture.ofTree .typeName name, ?_, rfl⟩
    refine (Sorting.mem_sort _).mpr (List.mem_append_left _ (List.mem_append_right _ ?_))
    exact List.mem_flatMap.mpr ⟨spec, inside, List.mem_map_of_mem ends⟩

end FileFacts

/-! ## Packages -/

namespace Go.SourceFile

/-- The files of a directory that can be read. -/
def readable (files : List (Text × Bytes)) : List SourceFile :=
  files.filterMap fun entry => (ofBytes entry.2).toOption

theorem readable_cons {fileName : Text} {content : Bytes} {file : SourceFile}
    (read : ofBytes content = .ok file) (rest : List (Text × Bytes)) :
    readable ((fileName, content) :: rest) = file :: readable rest := by
  rw [readable, List.filterMap_cons, read]
  rfl

theorem exists_text_of_mem_readable {files : List (Text × Bytes)} {file : SourceFile}
    (member : file ∈ readable files) : ∃ source, ofText? source = some file := by
  obtain ⟨entry, _, read⟩ := List.mem_filterMap.mp member
  cases result : ofBytes entry.2 with
  | error fault => simp [result, Except.toOption] at read
  | ok other =>
      have same : other = file := by simpa [result, Except.toOption] using read
      exact ⟨_, same ▸ (text_of_ofBytes result).2⟩

end Go.SourceFile

namespace PackageFacts

variable {packagePath type name : Text} {files : List (Text × Bytes)} {facts : PackageFacts}

/-- What is known of a package is what was known before and what its files show. -/
theorem collect_iff (known? : PackageFacts → Prop) (shown? : FileFacts → Prop)
    (add : ∀ fileName known file,
      known? (PackageFacts.add fileName known file) ↔ known? known ∨ shown? file)
    (files : List (Text × Bytes)) :
    ∀ {known}, (collect packagePath known files).result = .ok facts →
      (known? facts ↔ known? known ∨
        ∃ file ∈ SourceFile.readable files, shown? (FileFacts.ofFile file)) := by
  induction files with
  | nil =>
      intro known result
      have same : known = facts := Except.ok.inj result
      simp [same, SourceFile.readable]
  | cons entry rest induction =>
      intro known result
      obtain ⟨fileName, content⟩ := entry
      rw [collect] at result
      split at result
      · cases result
      · rename_i shown read
        obtain ⟨_, _, result⟩ := Attempt.result_andThen_eq_ok_iff.mp result
        unfold FileFacts.ofSource at read
        cases accepted : SourceFile.ofBytes content with
        | error fault => simp [accepted, Except.map] at read
        | ok file =>
            rw [accepted] at read
            obtain rfl : FileFacts.ofFile file = shown := Except.ok.inj read
            rw [induction result, add, SourceFile.readable_cons accepted,
              List.exists_mem_cons_iff, or_assoc]

theorem mem_itemsUnder_of_collect (collected : (collect packagePath {} files).result = .ok facts) :
    name ∈ itemsUnder type facts.methods ↔
      ∃ file ∈ SourceFile.readable files,
        ∃ declaration ∈ file.topLevel .methodDeclaration, ShowsMethod declaration type name := by
  have nothing : name ∉ itemsUnder type ({} : PackageFacts).methods := List.not_mem_nil
  rw [collect_iff (fun facts => name ∈ itemsUnder type facts.methods)
      (fun file => Lists file.methods type name) (fun _ _ _ => mem_itemsUnder_foldl _) files
      collected, or_iff_right nothing]
  refine exists_congr fun file => and_congr_right fun member => ?_
  obtain ⟨source, known⟩ := SourceFile.exists_text_of_mem_readable member
  exact FileFacts.lists_ofFile known

theorem mem_map_fst_declare (fileName : Text) (types : List Text) :
    ∀ known, type ∈ (declare fileName types known).map Prod.fst ↔
      type ∈ known.map Prod.fst ∨ type ∈ types := by
  induction types with
  | nil => simp [declare]
  | cons first rest induction =>
      intro known
      rw [declare, List.foldl_cons, ← declare, induction, List.mem_cons, ← or_assoc]
      refine or_congr_left ?_
      split
      · rename_i present
        obtain ⟨entry, listed, same⟩ := List.any_eq_true.mp present
        refine ⟨.inl, fun either => either.elim id fun new => ?_⟩
        rw [new, ← beq_iff_eq.mp same]
        exact List.mem_map_of_mem listed
      · simp

theorem isSome_fileOf? : (facts.fileOf? type).isSome ↔ type ∈ facts.declaredIn.map Prod.fst := by
  rw [fileOf?, Option.isSome_map, List.find?_isSome, List.mem_map]
  exact exists_congr fun entry => and_congr_right fun _ => beq_iff_eq

theorem isSome_fileOf?_of_collect (collected : (collect packagePath {} files).result = .ok facts) :
    (facts.fileOf? type).isSome ↔
      ∃ file ∈ SourceFile.readable files, ∃ spec ∈ file.inside .typeSpec,
        type ∈ (SourceFile.namesEndingIn Contract.backingSuffix spec).map Tree.code := by
  have nothing : type ∉ ({} : PackageFacts).declaredIn.map Prod.fst := List.not_mem_nil
  rw [isSome_fileOf?, collect_iff (fun facts => type ∈ facts.declaredIn.map Prod.fst)
    (fun file => type ∈ file.typeNames)
    (fun fileName known file => mem_map_fst_declare fileName file.typeNames known.declaredIn) files
    collected, or_iff_right nothing]
  simp only [FileFacts.mem_typeNames_ofFile]

end PackageFacts

end Scaffold
