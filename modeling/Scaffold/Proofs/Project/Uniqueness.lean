import Scaffold.Proofs.Contract.Distinct
import Scaffold.Proofs.Merge.Text
import Scaffold.Proofs.Project.Planned
import Scaffold.Proofs.Project.Rerun

/-!
# What a plan declares twice

A plan groups the implementations of a package by file and completes each file
on its own.  Nothing compares the contracts of different files with each other,
so two contracts with one backing type stay out of each other's way only as far
as the type and the methods they share are written already.
-/

namespace Scaffold

namespace Implementation

theorem flatMap_groupByFile_perm (implementations : List Implementation) :
    ((groupByFile implementations).flatMap Prod.snd).Perm implementations := by
  rw [groupByFile, List.flatMap_map]
  exact Sorting.flatMap_filter_perm fileName (Sorting.nodup_distinct _) fun implementation member =>
    Sorting.mem_distinct.mpr (List.mem_map_of_mem member)

/-- The backing type that is still to be declared. -/
def newTypes (implementation : Implementation) : List Text :=
  if implementation.isNew then [implementation.contract.backingName] else []

/-- The methods that are still to be written, each with its backing type. -/
def newMethods (implementation : Implementation) : List (Text × Text) :=
  (implementation.contract.methodNames.filter fun name =>
    !implementation.existing.contains name).map (implementation.contract.backingName, ·)

theorem mem_newTypes {implementation : Implementation} {type : Text} :
    type ∈ implementation.newTypes ↔
      implementation.isNew = true ∧ type = implementation.contract.backingName := by
  unfold newTypes
  split <;> simp_all

theorem mem_newMethods {implementation : Implementation} {type name : Text} :
    (type, name) ∈ implementation.newMethods ↔
      type = implementation.contract.backingName ∧
        name ∈ implementation.contract.methodNames ∧ name ∉ implementation.existing := by
  simp only [newMethods, List.mem_map, List.mem_filter, Prod.mk.injEq, Bool.not_eq_true',
    List.contains_eq_mem, decide_eq_false_iff_not]
  constructor
  · rintro ⟨_, written, rfl, rfl⟩
    exact ⟨rfl, written⟩
  · rintro ⟨rfl, written⟩
    exact ⟨name, written, rfl, rfl⟩

theorem nodup_newTypes (implementation : Implementation) : implementation.newTypes.Nodup := by
  unfold newTypes
  split
  · exact List.nodup_singleton _
  · exact List.nodup_nil

theorem nodup_newMethods {implementation : Implementation}
    (nodup : implementation.contract.methodNames.Nodup) : implementation.newMethods.Nodup :=
  (nodup.filter _).map fun _ _ same => (Prod.mk.inj same).2

end Implementation

namespace PackageFacts

/-- Contracts with one backing type leave nothing to be declared twice: the type
is declared already, and so are the methods that they share. -/
def Settles (facts : PackageFacts) (first second : Contract) : Prop :=
  first.backingName = second.backingName →
    (facts.fileOf? first.backingName).isSome = true ∧
      ∀ name ∈ first.methodNames, name ∈ second.methodNames →
        name ∈ itemsUnder first.backingName facts.methods

/-- Two implementations declare nothing in common exactly if their contracts
leave nothing to be declared twice. -/
theorem disjoint_iff_settles (packageName packagePath : Text) (facts : PackageFacts)
    (first second : Contract) :
    (facts.implementation packageName packagePath first).newTypes.Disjoint
          (facts.implementation packageName packagePath second).newTypes ∧
        (facts.implementation packageName packagePath first).newMethods.Disjoint
          (facts.implementation packageName packagePath second).newMethods ↔
      facts.Settles first second := by
  simp only [List.Disjoint, Prod.forall, Implementation.mem_newTypes,
    Implementation.mem_newMethods, isNew_implementation, contract_implementation,
    existing_implementation]
  constructor
  · rintro ⟨types, methods⟩ same
    have declared : (facts.fileOf? first.backingName).isSome = true := by
      by_contra missing
      have isNew : (facts.fileOf? first.backingName).isNone = true := by simpa using missing
      exact types ⟨isNew, rfl⟩ ⟨same ▸ isNew, same⟩
    refine ⟨declared, fun name known shared => ?_⟩
    by_contra missing
    rw [← same, if_pos declared] at methods
    exact methods first.backingName name ⟨rfl, known, missing⟩ ⟨rfl, shared, missing⟩
  · intro settled
    constructor
    · rintro _ ⟨isNew, rfl⟩ ⟨_, same⟩
      have declared := (settled same).1
      rw [Option.isNone_iff_eq_none.mp isNew] at declared
      exact Bool.false_ne_true declared
    · rintro _ name ⟨rfl, known, missing⟩ ⟨same, shared, _⟩
      obtain ⟨declared, written⟩ := settled same
      rw [if_pos declared] at missing
      exact missing (written name known shared)

end PackageFacts

namespace Addition

/-- The backing types of the dependency blocks. -/
def newTypes (addition : Addition) : List Text :=
  if addition.implementation.isNew then [addition.implementation.contract.backingName] else []

/-- The backing types of the stubs with the names of their methods. -/
def newMethods (addition : Addition) : List (Text × Text) :=
  addition.missing.map fun method =>
    (addition.implementation.contract.backingName, method.name)

theorem length_newTypes (addition : Addition) :
    addition.newTypes.length = addition.dependencyBlocks.length := by
  unfold newTypes dependencyBlocks
  split <;> rfl

theorem length_newMethods (addition : Addition) :
    addition.newMethods.length = addition.stubs.length := by
  rw [newMethods, stubs, List.length_map, List.length_map]

end Addition

namespace Merge

theorem flatMap_newTypes_plan (resolver : Resolver) (known : List Import)
    (implementations : List Implementation) :
    (plan resolver known implementations).flatMap Addition.newTypes =
      implementations.flatMap Implementation.newTypes := by
  conv_rhs => rw [← map_implementation_plan resolver implementations known, List.flatMap_map]
  rfl

theorem flatMap_newMethods_plan (resolver : Resolver) (known : List Import)
    (implementations : List Implementation) :
    (plan resolver known implementations).flatMap Addition.newMethods =
      implementations.flatMap Implementation.newMethods := by
  conv_rhs => rw [← map_implementation_plan resolver implementations known, List.flatMap_map]
  apply List.flatMap_congr
  intro addition member
  rw [Addition.newMethods, missing_of_mem_plan member, Implementation.newMethods,
    ← Implementation.map_name_missingMethods addition.contractImport.referenceName, List.map_map]
  rfl

end Merge

/-! ## The additions of a plan -/

namespace Project

/-- What is to be written into a file of an implementation package; nothing into
one that cannot be cut. -/
def additionsFor (project : Project) (disk : Disk) (module : Module) (path : Text)
    (implementations : List Implementation) : List Addition :=
  match Merge.read (disk.fileAt? (project.fullPath path)) implementations with
  | .error _ => []
  | .ok (layout, _) =>
    Merge.additions ⟨project.settings.root, module⟩ layout implementations

/-- What is to be written into the files of a plan, file by file. -/
def additionsOf (project : Project) (disk : Disk) (module : Module) (plan : Plan) :
    List Addition :=
  (Implementation.groupByFile plan.implementations).flatMap fun group =>
    project.additionsFor disk module (Path.join plan.packagePath group.1) group.2

/-- Each backing type gets at most one dependency block, and each of its methods
at most one stub. -/
structure DeclaresOnce (additions : List Addition) : Prop where
  types : (additions.flatMap Addition.newTypes).Nodup
  methods : (additions.flatMap Addition.newMethods).Nodup

/-- A file of a plan holds its additions behind what it holds anyway, up to
formatting. -/
def IsExtended (project : Project) (disk : Disk) (module : Module) (path : Text)
    (implementations : List Implementation) (merged : Merged) : Prop :=
  ∃ layout previous?,
    Merge.read (disk.fileAt? (project.fullPath path)) implementations =
        .ok (layout, previous?) ∧
      (project.format path
        (Merge.append (Merge.written (project.additionsFor disk module path implementations))
          (Merge.withImports module.path previous? layout
            (Merge.added ⟨project.settings.root, module⟩ layout implementations)))).result =
        .ok merged.text ∧
      merged.newTypes =
        ((project.additionsFor disk module path implementations).flatMap
          Addition.newTypes).length ∧
      merged.newMethods =
        ((project.additionsFor disk module path implementations).flatMap
          Addition.newMethods).length

variable {project : Project} {disk : Disk} {module : Module}

theorem IsMergedFile.isExtended {path : Text} {implementations : List Implementation}
    {merged : Merged} (known : project.IsMergedFile disk module path implementations merged) :
    project.IsExtended disk module path implementations merged := by
  obtain ⟨layout, previous?, text, read, formatted, rfl⟩ := known
  rw [Merge.text_complete] at formatted
  have additions : project.additionsFor disk module path implementations =
      Merge.additions ⟨project.settings.root, module⟩ layout implementations := by
    rw [additionsFor, read]
  refine ⟨layout, previous?, read, ?_, ?_, ?_⟩
  · rw [additions]
    exact formatted
  · rw [additions, List.length_flatMap, funext Addition.length_newTypes, ← List.length_flatMap]
    rfl
  · rw [additions, List.length_flatMap, funext Addition.length_newMethods, ← List.length_flatMap]
    rfl

/-- The additions of all files are those of the implementations of the package,
in the order of the files. -/
theorem IsPlanFor.flatMap_additionsOf {directory : Text} {contracts : List Contract} {plan : Plan}
    (planned : project.IsPlanFor disk (.ok module) directory contracts plan)
    {Item : Type} {item : Addition → List Item} {source : Implementation → List Item}
    (same : ∀ resolver known implementations,
      (Merge.plan resolver known implementations).flatMap item =
        implementations.flatMap source) :
    ((project.additionsOf disk module plan).flatMap item).Perm
      (plan.implementations.flatMap source) := by
  have groups : ∀ group ∈ Implementation.groupByFile plan.implementations,
      (project.additionsFor disk module (Path.join plan.packagePath group.1) group.2).flatMap
        item = group.2.flatMap source := by
    intro group member
    obtain ⟨merged, _, result⟩ := exists_related_right planned.merged group member
    obtain ⟨_, known, layout, previous?, _, read, _⟩ := result_planFile_eq_ok_iff.mp result
    rw [additionsFor, read]
    exact same _ _ _
  rw [additionsOf, List.flatMap_assoc, List.flatMap_congr groups, ← List.flatMap_assoc]
  exact (Implementation.flatMap_groupByFile_perm plan.implementations).flatMap_right _

/-- A plan declares everything once exactly if any two contracts of the package
with one backing type find the type declared, and written all methods that they
share. -/
theorem IsPlanFor.declaresOnce_iff {directory : Text} {fileNames : List Text}
    {contracts : List Contract} {plan : Plan}
    (declared : Contract.ofPackage disk project.settings.root directory fileNames = .ok contracts)
    (planned : project.IsPlanFor disk (.ok module) directory contracts plan) :
    ∃ facts, project.HasFacts disk plan.packagePath facts ∧
      (DeclaresOnce (project.additionsOf disk module plan) ↔ contracts.Pairwise facts.Settles) := by
  obtain ⟨facts, collected, scanned⟩ := planned.scanned
  have types := planned.flatMap_additionsOf Merge.flatMap_newTypes_plan
  have methods := planned.flatMap_additionsOf Merge.flatMap_newMethods_plan
  have distinct : ∀ implementation ∈ plan.implementations,
      implementation.contract.methodNames.Nodup := by
    intro implementation member
    rw [scanned] at member
    obtain ⟨contract, listed, rfl⟩ := List.mem_map.mp member
    rw [PackageFacts.contract_implementation]
    obtain ⟨_, _, _, extracted, there⟩ :=
      Contract.exists_source_of_mem_ofPackage _ declared contract listed
    obtain ⟨before, known, rfl⟩ := List.mem_map.mp there
    exact (Contract.isDistinct_ofSource extracted).2 before known
  have once : DeclaresOnce (project.additionsOf disk module plan) ↔
      (plan.implementations.flatMap Implementation.newTypes).Nodup ∧
        (plan.implementations.flatMap Implementation.newMethods).Nodup :=
    ⟨fun once => ⟨types.nodup_iff.mp once.types, methods.nodup_iff.mp once.methods⟩,
      fun once => ⟨types.nodup_iff.mpr once.1, methods.nodup_iff.mpr once.2⟩⟩
  refine ⟨facts, collected, once.trans ?_⟩
  rw [List.nodup_flatMap, List.nodup_flatMap,
    and_iff_right fun implementation _ => implementation.nodup_newTypes,
    and_iff_right fun implementation member => Implementation.nodup_newMethods
      (distinct implementation member),
    ← List.pairwise_and_iff, scanned, implementationsOf, List.pairwise_map]
  exact List.Pairwise.iff fun first second => PackageFacts.disjoint_iff_settles _ _ facts _ _

/-- A package that is planned is read, scanned and completed, and its plan
declares everything once exactly if the contracts leave nothing to be declared
twice. -/
theorem declaresOnce_iff_of_planPackage {found : Except ModuleFault Module} {directory : Text}
    {fileNames : List Text} {plan : Plan}
    (planned : (project.planPackage disk found directory fileNames).result = .ok (some plan)) :
    ∃ contracts facts module,
      Contract.ofPackage disk project.settings.root directory fileNames = .ok contracts ∧
        project.HasFacts disk plan.packagePath facts ∧ found = .ok module ∧
        List.Forall₂
          (fun group merged =>
            project.IsExtended disk module (Path.join plan.packagePath group.1) group.2 merged)
          (Implementation.groupByFile plan.implementations) plan.files ∧
        (DeclaresOnce (project.additionsOf disk module plan) ↔
          contracts.Pairwise facts.Settles) := by
  obtain ⟨contracts, declared, ⟨_, none⟩ | ⟨something, _, some, planFor⟩⟩ :=
    result_planPackage_eq_ok_iff.mp planned
  · simp at none
  · rw [← Option.some.inj some] at planFor
    obtain ⟨_, _, scanned⟩ := planFor.scanned
    obtain ⟨first, rest, contractsSplit⟩ := List.exists_cons_of_ne_nil something
    have grouped : ∃ group, group ∈ Implementation.groupByFile plan.implementations := by
      obtain ⟨implementation, listed⟩ : ∃ implementation, implementation ∈ plan.implementations :=
        ⟨_, by rw [scanned, implementationsOf, contractsSplit]; exact List.mem_cons_self⟩
      exact ⟨(implementation.fileName, plan.implementations.filter fun other =>
          other.fileName == implementation.fileName),
        mem_groupByFile.mpr ⟨List.mem_map_of_mem listed, rfl⟩⟩
    obtain ⟨group, listed⟩ := grouped
    obtain ⟨_, _, result⟩ := exists_related_right planFor.merged group listed
    obtain ⟨module, rfl, _⟩ := result_planFile_eq_ok_iff.mp result
    obtain ⟨facts, collected, once⟩ := planFor.declaresOnce_iff declared
    refine ⟨contracts, facts, module, declared, collected, rfl, ?_, once⟩
    refine planFor.merged.imp fun group merged result => ?_
    obtain ⟨_, same, known⟩ := result_planFile_eq_ok_iff.mp result
    rw [Except.ok.inj same]
    exact known.isExtended

/-- A package with one contract for each of two platforms, and a file of the
implementation package. -/
def platformDisk (implementation : Text) : Disk where
  entries :=
    [(["p"], .directory), (["p", "go.mod"], .file (Utf8.encode "module m\n")),
      (["p", "api"], .directory),
      (["p", "api", "x_linux.go"],
        .file (Utf8.encode "package a\ntype XRepository interface\x7bA()\x7d\n")),
      (["p", "api", "x_windows.go"],
        .file (Utf8.encode "package a\ntype XRepository interface\x7bA()\x7d\n")),
      (["p", "i"], .directory), (["p", "i", "x.go"], .file (Utf8.encode implementation))]

/-- What the plan for both platforms adds. -/
def platformAdditions (implementation : Text) : Option (List Addition) :=
  match (plainProject.planPackage (platformDisk implementation) (.ok ⟨"m", "/p"⟩) "api"
      ["x_linux.go", "x_windows.go"]).result with
  | .ok (some plan) =>
    some (plainProject.additionsOf (platformDisk implementation) ⟨"m", "/p"⟩ plan)
  | _ => none

theorem exists_plan_of_platformAdditions {implementation : Text} {additions : List Addition}
    (known : platformAdditions implementation = some additions) :
    ∃ plan, (plainProject.planPackage (platformDisk implementation) (.ok ⟨"m", "/p"⟩) "api"
        ["x_linux.go", "x_windows.go"]).result = .ok (some plan) ∧
      plainProject.additionsOf (platformDisk implementation) ⟨"m", "/p"⟩ plan = additions := by
  unfold platformAdditions at known
  split at known
  · rename_i plan planned
    exact ⟨plan, planned, Option.some.inj known⟩
  · simp at known

/-- An implementation file in which the type and its method are written. -/
def writtenSource : Text :=
  "package i\ntype xRepositoryImpl int\nfunc (xRepositoryImpl) A() \x7b\x7d\n"

/-- What is written already is not declared again for either platform. -/
theorem settles_written : ∃ plan contracts facts,
    (plainProject.planPackage (platformDisk writtenSource) (.ok ⟨"m", "/p"⟩) "api"
        ["x_linux.go", "x_windows.go"]).result = .ok (some plan) ∧
      Contract.ofPackage (platformDisk writtenSource) "/p" "api" ["x_linux.go", "x_windows.go"] =
        .ok contracts ∧
      contracts.Pairwise (PackageFacts.Settles facts) := by
  have nothing : (platformAdditions writtenSource).any (fun additions =>
      decide (additions.flatMap Addition.newTypes).Nodup &&
        decide (additions.flatMap Addition.newMethods).Nodup) = true := by
    decide +kernel
  obtain ⟨additions, known, once⟩ := Option.any_eq_true _ _ |>.mp nothing
  obtain ⟨plan, planned, same⟩ := exists_plan_of_platformAdditions known
  rw [Bool.and_eq_true, decide_eq_true_eq, decide_eq_true_eq] at once
  obtain ⟨contracts, facts, module, declared, _, found, _, iff⟩ :=
    declaresOnce_iff_of_planPackage planned
  rw [← Except.ok.inj found, same] at iff
  exact ⟨plan, contracts, facts, planned, declared, iff.mp ⟨once.1, once.2⟩⟩

/-- Contracts of one name in two files get two dependency blocks for one backing
type. -/
theorem not_declaresOnce_platforms : ∃ plan,
    (plainProject.planPackage (platformDisk "package i\n") (.ok ⟨"m", "/p"⟩) "api"
        ["x_linux.go", "x_windows.go"]).result = .ok (some plan) ∧
      ¬ DeclaresOnce (plainProject.additionsOf (platformDisk "package i\n") ⟨"m", "/p"⟩ plan) := by
  have twice : (platformAdditions "package i\n").any (fun additions =>
      !decide (additions.flatMap Addition.newTypes).Nodup) = true := by
    decide +kernel
  obtain ⟨additions, known, repeated⟩ := Option.any_eq_true _ _ |>.mp twice
  obtain ⟨plan, planned, same⟩ := exists_plan_of_platformAdditions known
  refine ⟨plan, planned, fun once => ?_⟩
  rw [same] at once
  rw [decide_eq_true once.types] at repeated
  exact Bool.false_ne_true repeated

end Project

end Scaffold
