import Mathlib.Logic.Relation
import Scaffold.Proofs.Implementation.Receivers
import Scaffold.Proofs.Implementation.Scan

/-!
# Methods that are written already

A scan knows a method of a contract if some file declares its backing type as a
type of its own and some file shows the method on it.  A package may declare the
method in other ways as well: on an alias of a type, or with a receiver that has
parentheses or type arguments.
-/

namespace Scaffold

open Go (SourceFile Tree declaredMethods receivers)

/-! ## Declarations of a package -/

namespace Go.SourceFile

/-- The methods of a file, each behind the name of its type. -/
def methods (file : SourceFile) : List (Text × Text) :=
  (file.topLevel .methodDeclaration).flatMap declaredMethods

/-- The name of an alias and the name of the type that it stands for. -/
def aliasOf? : Tree → Option (Text × Text)
  | .node .typeAlias [.leaf name, .leaf _, type] => type.typeName?.map (name.text, ·)
  | _ => none

/-- The aliases of a file at package level. -/
def aliases (file : SourceFile) : List (Text × Text) :=
  ((file.topLevel .typeDeclaration).flatMap (Tree.parts .typeAlias)).filterMap aliasOf?

end Go.SourceFile

variable {sources : List SourceFile} {type name : Text}

/-- Two names of a package stand for one type. -/
def IsSameType (sources : List SourceFile) : Text → Text → Prop :=
  Relation.Join (Relation.ReflTransGen fun name target =>
    (name, target) ∈ sources.flatMap SourceFile.aliases)

/-- A package declares a method on a type, for values or for pointers. -/
def DeclaresMethod (sources : List SourceFile) (type name : Text) : Prop :=
  ∃ base, IsSameType sources type base ∧ (base, name) ∈ sources.flatMap SourceFile.methods

/-- A package declares a type of its own under a name. -/
def DeclaresType (sources : List SourceFile) (type : Text) : Prop :=
  ∃ file ∈ sources, ∃ spec ∈ file.inside .typeSpec, type ∈ (spec.parts .name).map Tree.code

instance (sources : List SourceFile) (type : Text) : Decidable (DeclaresType sources type) :=
  inferInstanceAs (Decidable (∃ file ∈ sources, ∃ spec ∈ file.inside .typeSpec,
    type ∈ (spec.parts .name).map Tree.code))

/-- A package declares a method on a type of its own under the name of the type. -/
def DeclaresPlainly (sources : List SourceFile) (type name : Text) : Prop :=
  DeclaresType sources type ∧
    ∃ file ∈ sources, ∃ declaration ∈ file.topLevel .methodDeclaration,
      (type, name) ∈ declaredMethods declaration ∧
        ∀ receiver ∈ receivers declaration, receiver.IsPlain

/-- A scan knows a method. -/
structure IsSeen (sources : List SourceFile) (type name : Text) : Prop where
  declared : DeclaresType sources type
  shown : ∃ file ∈ sources, ∃ declaration ∈ file.topLevel .methodDeclaration,
    ShowsMethod declaration type name

namespace Go.SourceFile

theorem isWord_of_typeSpec {source : Text} {file : SourceFile}
    (known : ofText? source = some file) {spec tree : Tree} (inside : spec ∈ file.inside .typeSpec)
    (part : tree ∈ spec.parts .name) : IsWord tree.code ∧ tree.text = tree.code := by
  obtain ⟨item, listed, below⟩ := List.mem_flatMap.mp inside
  have within : spec ∈ Tree.subtreesOfAll file.items :=
    Tree.mem_subtreesOfAll.mpr ⟨item, listed, (List.mem_filter.mp below).1⟩
  obtain ⟨children, rfl, deeper⟩ := exists_name_of_mem_parts within part
  obtain ⟨tokens, cut, token, member, isName, code⟩ := exists_token_of_name known deeper
  obtain ⟨leaf, rfl, _⟩ := exists_leaf_of_name known deeper
  rw [code]
  exact ⟨isWord_of_mem_tokens cut member isName, code⟩

end Go.SourceFile

theorem Contract.endsWith_backingName {contract : Contract} (named : contract.backingName ≠ []) :
    Text.endsWith Contract.backingSuffix contract.backingName = true := by
  apply List.isSuffixOf_iff_suffix.mpr
  cases name : contract.name with
  | nil => exact absurd (by rw [Contract.backingName, name]) named
  | cons first rest =>
      rw [Contract.backingName, name]
      exact List.suffix_append _ _

/-! ## What a scan knows -/

namespace PackageFacts

variable {packagePath : Text} {files : List (Text × Bytes)} {facts : PackageFacts}
  {contract : Contract}

/-- The backing type of a contract is found wherever it is declared as a type. -/
theorem isSome_fileOf?_backingName
    (collected : (collect packagePath {} files).result = .ok facts) :
    (facts.fileOf? contract.backingName).isSome ↔
      DeclaresType (SourceFile.readable files) contract.backingName := by
  rw [isSome_fileOf?_of_collect collected]
  refine exists_congr fun file => and_congr_right fun member => exists_congr fun spec =>
    and_congr_right fun inside => ?_
  obtain ⟨source, known⟩ := SourceFile.exists_text_of_mem_readable member
  rw [List.mem_map, List.mem_map]
  refine exists_congr fun tree => ?_
  constructor
  · rintro ⟨kept, same⟩
    exact ⟨(List.mem_filter.mp kept).1, same⟩
  · rintro ⟨part, same⟩
    obtain ⟨isWord, text⟩ := SourceFile.isWord_of_typeSpec known inside part
    refine ⟨List.mem_filter.mpr ⟨part, ?_⟩, same⟩
    rw [text, same]
    exact Contract.endsWith_backingName (same ▸ isWord.named)

theorem mem_existing_iff {packageName : Text}
    (collected : (collect packagePath {} files).result = .ok facts) :
    name ∈ (facts.implementation packageName packagePath contract).existing ↔
      IsSeen (SourceFile.readable files) contract.backingName name := by
  rw [existing_implementation]
  split
  · rename_i found
    have declared := (isSome_fileOf?_backingName collected).mp found
    rw [mem_itemsUnder_of_collect collected]
    exact ⟨fun shown => ⟨declared, shown⟩, IsSeen.shown⟩
  · rename_i missing
    refine ⟨fun nothing => absurd nothing List.not_mem_nil, fun seen => ?_⟩
    exact absurd ((isSome_fileOf?_backingName collected).mpr seen.declared) missing

end PackageFacts

theorem DeclaresPlainly.isSeen {files : List (Text × Bytes)} {contract : Contract}
    (declared : DeclaresPlainly (SourceFile.readable files) contract.backingName name) :
    IsSeen (SourceFile.readable files) contract.backingName name := by
  obtain ⟨declaresType, file, member, declaration, listed, method, plain⟩ := declared
  obtain ⟨source, known⟩ := SourceFile.exists_text_of_mem_readable member
  obtain ⟨typed, readType, spec, inside, named⟩ := declaresType
  obtain ⟨other, read⟩ := SourceFile.exists_text_of_mem_readable readType
  obtain ⟨tree, part, same⟩ := List.mem_map.mp named
  have isWord := (SourceFile.isWord_of_typeSpec read inside part).1
  refine ⟨⟨typed, readType, spec, inside, named⟩, file, member, declaration, listed, ?_⟩
  exact SourceFile.showsMethod_of_isPlain known listed method plain
    (Contract.endsWith_backingName (same ▸ isWord.named))

namespace Implementation

variable {disk : Disk} {root packagePath : Text} {contracts : List Contract}
  {implementations : List Implementation}

/-- What is missing is declared nowhere. -/
def AddsOnlyNew (sources : List SourceFile) (implementations : List Implementation) : Prop :=
  ∀ implementation ∈ implementations, ∀ qualifier,
    ∀ method ∈ implementation.missingMethods qualifier,
      ¬ DeclaresMethod sources implementation.contract.backingName method.name

/-- The sources of an implementation package. -/
def sourcesIn (disk : Disk) (root packagePath : Text) : List SourceFile :=
  SourceFile.readable (sourceFiles disk (Path.within root packagePath))

theorem mem_map_name_missingMethods {qualifier : Text} {implementation : Implementation} :
    name ∈ (implementation.missingMethods qualifier).map Method.name ↔
      name ∈ implementation.contract.methodNames ∧ name ∉ implementation.existing := by
  simp [map_name_missingMethods]

/-- Exactly the methods that a scan does not know are missing. -/
theorem mem_missing_iff_of_scan
    (scanned : (scan disk root packagePath contracts).result = .ok implementations) :
    ∃ implement : Contract → Implementation, implementations = contracts.map implement ∧
      ∀ contract ∈ contracts, (implement contract).contract = contract ∧
        ∀ qualifier name, name ∈ ((implement contract).missingMethods qualifier).map Method.name ↔
          name ∈ contract.methodNames ∧
            ¬ IsSeen (sourcesIn disk root packagePath) contract.backingName name := by
  unfold scan at scanned
  split at scanned
  · obtain rfl : [] = implementations := Except.ok.inj scanned
    exact ⟨fun contract => ⟨contract, [], [], [], [], false⟩, rfl, by simp⟩
  · rename_i first rest
    obtain ⟨facts, collected, made⟩ := Attempt.result_andThen_eq_ok_iff.mp scanned
    refine ⟨_, (Except.ok.inj made).symm, fun contract _ => ?_⟩
    refine ⟨facts.contract_implementation _ _ contract, fun qualifier name => ?_⟩
    rw [mem_map_name_missingMethods, facts.contract_implementation,
      PackageFacts.mem_existing_iff collected]
    rfl

/-- A scan adds only new methods exactly if it sees every method of a contract
that the package declares on the backing type.  It sees those that are declared
plainly. -/
theorem addsOnlyNew_iff_of_scan
    (scanned : (scan disk root packagePath contracts).result = .ok implementations) :
    (AddsOnlyNew (sourcesIn disk root packagePath) implementations ↔
      ∀ contract ∈ contracts, ∀ name ∈ contract.methodNames,
        DeclaresMethod (sourcesIn disk root packagePath) contract.backingName name →
          IsSeen (sourcesIn disk root packagePath) contract.backingName name) ∧
      ∀ implementation ∈ implementations, ∀ qualifier,
        ∀ method ∈ implementation.missingMethods qualifier,
          ¬ DeclaresPlainly (sourcesIn disk root packagePath)
            implementation.contract.backingName method.name := by
  obtain ⟨implement, rfl, exact⟩ := mem_missing_iff_of_scan scanned
  refine ⟨⟨fun new contract listed name named declared => ?_, fun seen => ?_⟩, ?_⟩
  · by_contra unseen
    obtain ⟨same, missing⟩ := exact contract listed
    obtain ⟨method, lacking, rfl⟩ := List.mem_map.mp ((missing [] name).mpr ⟨named, unseen⟩)
    exact new _ (List.mem_map_of_mem listed) [] method lacking (same.symm ▸ declared)
  · intro implementation member qualifier method lacking declared
    obtain ⟨contract, listed, rfl⟩ := List.mem_map.mp member
    obtain ⟨same, missing⟩ := exact contract listed
    obtain ⟨named, unseen⟩ := (missing qualifier method.name).mp (List.mem_map_of_mem lacking)
    exact unseen (seen contract listed method.name named (same ▸ declared))
  · intro implementation member qualifier method lacking declared
    obtain ⟨contract, listed, rfl⟩ := List.mem_map.mp member
    obtain ⟨same, missing⟩ := exact contract listed
    obtain ⟨_, unseen⟩ := (missing qualifier method.name).mp (List.mem_map_of_mem lacking)
    exact unseen (same ▸ declared).isSeen

/-- A disk with the sources of an implementation package. -/
def packageDisk (files : List (Text × Text)) : Disk where
  entries :=
    (["p"], .directory) :: (["p", "i"], .directory) ::
      files.map fun file => ((["p", "i"] : List Text) ++ [file.1], .file (Utf8.encode file.2))

/-- A contract with two methods. -/
def pairContract : Contract where
  name := "XRepository"
  methods := [{ name := "A" }, { name := "B" }]

/-- A backing type in one file and a method on it in another. -/
def spreadDisk : Disk :=
  packageDisk [("t.go", "package i\ntype xRepositoryImpl int\n"),
    ("x.go", "package i\nfunc (r * /* v */ xRepositoryImpl) A() \x7b\x7d\n")]

/-- A method in another file than its type is not added again. -/
theorem addsOnlyNew_spread : ∃ implementations,
    (scan spreadDisk "/p" "i" [pairContract]).result = .ok implementations ∧
      AddsOnlyNew (sourcesIn spreadDisk "/p" "i") implementations := by
  have scanned : (scan spreadDisk "/p" "i" [pairContract]).result =
      .ok [{ contract := pairContract, packageName := "i", packagePath := "i",
             fileName := "t.go", existing := ["A"] }] := by
    decide +kernel
  have methods : (sourcesIn spreadDisk "/p" "i").flatMap SourceFile.methods =
      ([("xRepositoryImpl", "A")] : List (Text × Text)) := by
    decide +kernel
  have seen : IsSeen (sourcesIn spreadDisk "/p" "i") "xRepositoryImpl" "A" :=
    ⟨by decide +kernel, by decide +kernel⟩
  refine ⟨_, scanned, (addsOnlyNew_iff_of_scan scanned).1.mpr ?_⟩
  rintro contract listed name - ⟨base, _, declared⟩
  rw [methods, List.mem_singleton] at declared
  rw [(Prod.mk.inj declared).2, List.mem_singleton.mp listed]
  exact seen

/-- A method on a backing type that is an alias. -/
def aliasDisk : Disk :=
  packageDisk [("x.go", ("package i\ntype target struct\x7b\x7d\n" : Text) ++
    ("type xRepositoryImpl = target\nfunc (r *xRepositoryImpl) A() \x7b\x7d\n" : Text))]

/-- A method on an alias is added again. -/
theorem not_addsOnlyNew_alias : ∃ implementations,
    (scan aliasDisk "/p" "i" [pairContract]).result = .ok implementations ∧
      ¬ AddsOnlyNew (sourcesIn aliasDisk "/p" "i") implementations := by
  have scanned : (scan aliasDisk "/p" "i" [pairContract]).result =
      .ok [{ contract := pairContract, packageName := "i", packagePath := "i",
             fileName := "x_impl.go", isNew := true }] := by
    decide +kernel
  have declared : (("xRepositoryImpl", "A") : Text × Text) ∈
      (sourcesIn aliasDisk "/p" "i").flatMap SourceFile.methods := by
    decide +kernel
  refine ⟨_, scanned, fun new => ?_⟩
  exact new _ (List.mem_singleton_self _) [] { name := "A" } (by decide +kernel)
    ⟨_, ⟨_, .refl, .refl⟩, declared⟩

end Implementation

end Scaffold
