import Scaffold.Implementation.DependencyBlock
import Scaffold.Proofs.Contract.Names
import Scaffold.Proofs.Text.Lines

/-!
# Names that dependency blocks declare

A dependency block declares four names at top level, all made from the name of
its contract.  Blocks of different contracts stay apart unless the names of the
contracts agree once their first letters are in lower case.
-/

namespace Scaffold

namespace Go

/-! ## Declarations in a text -/

/-- The words that open declarations of types, variables and functions. -/
def declarationWords : List Text :=
  ["type ", "var ", "func "]

/-- The character ends a declared name. -/
def endsDeclared (character : Char) : Bool :=
  character == ' ' || character == '('

/-- The name that a line declares at top level. -/
def declaredOn? (line : Text) : Option Text :=
  (declarationWords.find? fun word => Text.startsWith word line).map fun word =>
    (line.drop word.length).takeWhile fun character => !endsDeclared character

/-- The names that the lines of a text declare at top level, in order. -/
def declaredNames (text : Text) : List Text :=
  (Text.splitOn '\n' text).filterMap declaredOn?

theorem declaredOn?_append {word name rest : Text} (known : word ∈ declarationWords)
    (proper : ∀ character ∈ name, endsDeclared character = false)
    (stops : rest.head?.any endsDeclared = true) :
    declaredOn? (word ++ name ++ rest) = some name := by
  have cut : ((name ++ rest).takeWhile fun character => !endsDeclared character) = name := by
    rw [List.takeWhile_append_of_pos fun character member => by simp [proper character member]]
    cases rest with
    | nil => exact List.append_nil name
    | cons stop rest =>
        rw [List.head?_cons, Option.any_some] at stops
        rw [List.takeWhile_cons_of_neg (by simp [stops]), List.append_nil]
  rw [List.append_assoc]
  simp only [declarationWords, List.mem_cons, List.not_mem_nil, or_false] at known
  rcases known with rfl | rfl | rfl <;> exact congrArg some cut

end Go

/-! ## Names of contracts -/

namespace Contract

/-- A name begins with a letter, goes on with letters and digits, and ends as
the names of contracts do. -/
structure IsContractName (name : Text) : Prop where
  begins : (name.head?.any Go.startsName) = true
  word : ∀ character ∈ name, Go.continuesName character = true
  ends : Text.endsWith suffix name = true

instance (name : Text) : Decidable (IsContractName name) :=
  decidable_of_iff (((name.head?.any Go.startsName) = true) ∧
      name.all Go.continuesName = true ∧ Text.endsWith suffix name = true)
    ⟨fun ⟨begins, word, ends⟩ => ⟨begins, List.all_eq_true.mp word, ends⟩,
      fun proper => ⟨proper.begins, List.all_eq_true.mpr proper.word, proper.ends⟩⟩

/-- A name with its first letter in lower case. -/
def lowerFirst : Text → Text
  | [] => []
  | first :: rest => Text.lower [first] ++ rest

/-- The names of contracts whose other names are not told apart by a prefix. -/
def unprefixed : List Text :=
  [suffix, suffix ++ suffix]

theorem IsContractName.exists_stem {name : Text} (proper : IsContractName name) :
    ∃ stem, name = stem ++ suffix := by
  obtain ⟨stem, split⟩ := List.isSuffixOf_iff_suffix.mp proper.ends
  exact ⟨stem, split.symm⟩

theorem IsContractName.ne_nil {name : Text} (proper : IsContractName name) : name ≠ [] := by
  obtain ⟨stem, rfl⟩ := proper.exists_stem
  exact List.append_ne_nil_of_right_ne_nil stem (by decide)

theorem shortName_of_stem {contract : Contract} {stem : Text}
    (split : contract.name = stem ++ suffix) :
    contract.shortName = if stem = [] then suffix else stem := by
  have ends : Text.endsWith suffix contract.name = true :=
    List.isSuffixOf_iff_suffix.mpr ⟨stem, split.symm⟩
  unfold shortName
  by_cases bare : stem = []
  · rw [if_pos bare, if_neg]
    · rw [split, bare, List.nil_append]
    · rw [split, bare, List.nil_append]
      omega
  · have long := List.length_pos_of_ne_nil bare
    rw [if_neg bare, if_pos ⟨by rw [split, List.length_append]; omega, ends⟩, split, Text.dropLast,
      List.length_append, Nat.add_sub_cancel, List.take_left]

theorem mem_unprefixed_iff {stem : Text} :
    stem ++ suffix ∈ unprefixed ↔ stem = [] ∨ stem = suffix := by
  rw [unprefixed, List.mem_cons, List.mem_singleton, List.append_left_eq_self,
    List.append_left_inj]

theorem qualify_eq (contract : Contract) (name : Text) :
    contract.qualify name = contract.qualify [] ++ name := by
  unfold qualify
  split
  · rfl
  · rw [List.append_nil]

theorem qualify_nil_of_stem {contract : Contract} {stem : Text}
    (split : contract.name = stem ++ suffix) :
    contract.qualify [] = if stem = suffix then [] else stem := by
  unfold qualify isBare
  rw [shortName_of_stem split]
  by_cases bare : stem = []
  · rw [if_pos bare, if_pos (beq_self_eq_true suffix), bare, if_neg (by decide)]
  · by_cases twice : stem = suffix
    · rw [if_neg bare, if_pos twice, if_pos (by rw [twice, beq_self_eq_true])]
    · rw [if_neg bare, if_neg twice, if_neg (by simpa using twice), List.append_nil]

theorem backingName_eq {contract : Contract} (named : contract.name ≠ []) :
    contract.backingName = lowerFirst contract.name ++ backingSuffix := by
  obtain ⟨first, rest, split⟩ := List.exists_cons_of_ne_nil named
  rw [backingName, split]
  rfl

end Contract

/-! ## Names in a block -/

namespace DependencyBlock

open Contract (IsContractName lowerFirst unprefixed)

/-- The names that a dependency block declares. -/
def declared (contract : Contract) : List Text :=
  [dependenciesName contract, optionsName contract, constructorName contract,
    contract.backingName]

theorem not_mem_of_continuesName {mark : Char} (foreign : Go.continuesName mark = false)
    {text : Text} (word : ∀ character ∈ text, Go.continuesName character = true) : mark ∉ text :=
  fun member => Bool.false_ne_true (foreign.symm.trans (word mark member))

/-- No mark that ends names gets into them. -/
theorem not_mem_declared {mark : Char} (early : Text.IsEarly mark)
    (foreign : Go.continuesName mark = false) {contract : Contract}
    (proper : IsContractName contract.name) : ∀ name ∈ declared contract, mark ∉ name := by
  obtain ⟨stem, split⟩ := proper.exists_stem
  have whole : mark ∉ contract.name := not_mem_of_continuesName foreign proper.word
  have before : mark ∉ contract.qualify [] := by
    rw [Contract.qualify_nil_of_stem split]
    split
    · exact List.not_mem_nil
    · exact fun member => whole (split ▸ List.mem_append_left _ member)
  have lowered : mark ∉ lowerFirst contract.name := by
    obtain ⟨first, rest, parts⟩ := List.exists_cons_of_ne_nil proper.ne_nil
    rw [parts, List.mem_cons, not_or] at whole
    rw [parts, lowerFirst, List.mem_append, not_or]
    exact ⟨Text.not_mem_lower early (by simpa using whole.1), whole.2⟩
  have added : ∀ text ∈ ([("Dependencies" : Text), "Options", "New", Contract.backingSuffix] :
      List Text), mark ∉ text := by
    have words : ([("Dependencies" : Text), "Options", "New", Contract.backingSuffix] :
        List Text).all (fun text => text.all Go.continuesName) = true := by decide +kernel
    intro text member
    exact not_mem_of_continuesName foreign
      (List.all_eq_true.mp (List.all_eq_true.mp words text member))
  intro name member
  simp only [declared, List.mem_cons, List.not_mem_nil, or_false] at member
  rcases member with rfl | rfl | rfl | rfl
  · rw [dependenciesName, Contract.qualify_eq, List.mem_append, not_or]
    exact ⟨before, added _ (by simp)⟩
  · rw [optionsName, Contract.qualify_eq, List.mem_append, not_or]
    exact ⟨before, added _ (by simp)⟩
  · rw [constructorName, List.mem_append, not_or]
    exact ⟨added _ (by simp), whole⟩
  · rw [Contract.backingName_eq proper.ne_nil, List.mem_append, not_or]
    exact ⟨lowered, added _ (by simp)⟩

/-- Read line by line, a block declares its four names. -/
theorem declaredNames_render {qualifier : Text} (clean : '\n' ∉ qualifier) {contract : Contract}
    (proper : IsContractName contract.name) :
    Go.declaredNames (render qualifier contract) = declared contract := by
  have noBreak : ∀ name ∈ declared contract, '\n' ∉ name :=
    not_mem_declared (by decide) (by decide) proper
  have whole {name : Text} (member : name ∈ declared contract) :
      ∀ character ∈ name, Go.endsDeclared character = false := by
    intro character inside
    rw [Go.endsDeclared, Bool.or_eq_false_iff, beq_eq_false_iff_ne, beq_eq_false_iff_ne]
    constructor
    · rintro rfl
      exact not_mem_declared (by decide) (by decide) proper _ member inside
    · rintro rfl
      exact not_mem_declared (by decide) (by decide) proper _ member inside
  have struct : Go.declaredOn? ("type " ++ dependenciesName contract ++ " struct \x7b") =
      some (dependenciesName contract) :=
    Go.declaredOn?_append (by simp [Go.declarationWords]) (whole (by simp [declared])) rfl
  have options : Go.declaredOn? ("var " ++ optionsName contract ++ " = fx.Options(") =
      some (optionsName contract) :=
    Go.declaredOn?_append (by simp [Go.declarationWords]) (whole (by simp [declared])) rfl
  have constructor : Go.declaredOn? ("func " ++ constructorName contract ++ "(deps " ++
      dependenciesName contract ++ ") " ++ returnType qualifier contract ++ " \x7b") =
        some (constructorName contract) := by
    rw [List.append_assoc, List.append_assoc, List.append_assoc,
      List.append_assoc (_ ++ constructorName contract)]
    exact Go.declaredOn?_append (by simp [Go.declarationWords]) (whole (by simp [declared])) rfl
  have backing : Go.declaredOn? ("type " ++ contract.backingName ++ " struct \x7b") =
      some contract.backingName :=
    Go.declaredOn?_append (by simp [Go.declarationWords]) (whole (by simp [declared])) rfl
  have returned : '\n' ∉ returnType qualifier contract := by
    have named : '\n' ∉ contract.name := not_mem_of_continuesName (by decide) proper.word
    unfold returnType
    split
    · exact named
    · simp [clean, named]
  rw [Go.declaredNames, render, Text.splitOn_ofLines]
  · simp only [List.cons_append, List.filterMap_cons, struct, options, constructor, backing]
    rfl
  · simp only [declared, List.forall_mem_cons] at noBreak
    simp [noBreak, returned]

/-- The last letters of a name, last letter first. -/
def ending (name : Text) : Text :=
  name.reverse.take 2

theorem ending_append {before added : Text} (long : 2 ≤ added.length) :
    ending (before ++ added) = ending added := by
  rw [ending, List.reverse_append, List.take_append_of_le_length (by simpa using long), ending]

theorem endings_declared {contract : Contract} (proper : IsContractName contract.name) :
    (declared contract).map ending = [['s', 'e'], ['s', 'n'], ['y', 'r'], ['l', 'p']] := by
  obtain ⟨stem, split⟩ := proper.exists_stem
  rw [declared, dependenciesName, optionsName, constructorName, Contract.qualify_eq,
    Contract.qualify_eq contract "Options", Contract.backingName_eq proper.ne_nil,
    split, ← List.append_assoc]
  simp only [List.map_cons, List.map_nil]
  rw [ending_append (by decide), ending_append (by decide), ending_append (by decide),
    ending_append (by decide)]
  decide

theorem disjoint_iff_forall₂ {kind : Text → Text} {first second : List Text}
    (same : first.map kind = second.map kind) (once : (first.map kind).Nodup) :
    first.Disjoint second ↔ List.Forall₂ (· ≠ ·) first second := by
  induction first generalizing second with
  | nil =>
      rw [List.map_eq_nil_iff.mp same.symm]
      simp
  | cons name names induction =>
      have some : second ≠ [] := fun none => by simp [none] at same
      obtain ⟨other, others, rfl⟩ := List.exists_cons_of_ne_nil some
      rw [List.map_cons, List.map_cons, List.cons.injEq] at same
      rw [List.map_cons, List.nodup_cons] at once
      have absent : name ∉ others := fun member =>
        once.1 (same.2 ▸ List.mem_map_of_mem member)
      have absentOther : other ∉ names := fun member =>
        once.1 (same.1 ▸ List.mem_map_of_mem member)
      rw [List.forall₂_cons, List.disjoint_cons_left, List.disjoint_cons_right, List.mem_cons,
        not_or, induction same.2 once.2]
      exact ⟨fun ⟨⟨different, _⟩, _, rest⟩ => ⟨different, rest⟩,
        fun ⟨different, rest⟩ => ⟨⟨different, absent⟩, absentOther, rest⟩⟩

/-- The blocks of two contracts declare a name in common exactly if the names of
the contracts agree once their first letters are in lower case, for contracts
of which at least one puts a prefix before its declarations. -/
theorem disjoint_declaredNames_iff {first second : Contract}
    {firstQualifier secondQualifier : Text}
    (firstProper : IsContractName first.name) (secondProper : IsContractName second.name)
    (different : first.name ≠ second.name)
    (prefixed : first.name ∉ unprefixed ∨ second.name ∉ unprefixed)
    (firstClean : '\n' ∉ firstQualifier) (secondClean : '\n' ∉ secondQualifier) :
    (Go.declaredNames (render firstQualifier first)).Disjoint
        (Go.declaredNames (render secondQualifier second)) ↔
      lowerFirst first.name ≠ lowerFirst second.name := by
  rw [declaredNames_render firstClean firstProper, declaredNames_render secondClean secondProper,
    disjoint_iff_forall₂ ((endings_declared firstProper).trans (endings_declared secondProper).symm)
      (by rw [endings_declared firstProper]; decide)]
  obtain ⟨firstStem, firstSplit⟩ := firstProper.exists_stem
  obtain ⟨secondStem, secondSplit⟩ := secondProper.exists_stem
  have stems : firstStem ≠ secondStem := fun same =>
    different (by rw [firstSplit, secondSplit, same])
  have own : first.qualify [] ≠ second.qualify [] := by
    rw [firstSplit, secondSplit, Contract.mem_unprefixed_iff, Contract.mem_unprefixed_iff]
      at prefixed
    rw [Contract.qualify_nil_of_stem firstSplit, Contract.qualify_nil_of_stem secondSplit]
    split <;> split
    · rename_i twice other
      exact fun _ => stems (twice.trans other.symm)
    · rename_i twice _
      exact fun bare => prefixed.elim (fun none => none (.inr twice)) fun none => none (.inl bare.symm)
    · rename_i _ twice
      exact fun bare => prefixed.elim (fun none => none (.inl bare)) fun none => none (.inr twice)
    · exact stems
  have constructors : constructorName first ≠ constructorName second := fun same =>
    different (List.append_cancel_left same)
  simp only [declared, dependenciesName, optionsName, List.forall₂_cons, List.Forall₂.nil, and_true]
  rw [Contract.qualify_eq, Contract.qualify_eq second, Contract.qualify_eq first "Options",
    Contract.qualify_eq second "Options", Contract.backingName_eq firstProper.ne_nil,
    Contract.backingName_eq secondProper.ne_nil]
  simp [own, constructors]

/-- A contract that is named by a text. -/
def contractNamed (name : Text) : Contract :=
  { name := name, packageName := "users", packagePath := "api/users" }

theorem disjoint_declaredNames_users :
    (Go.declaredNames (render "users" (contractNamed "UserRepository"))).Disjoint
      (Go.declaredNames (render "users" (contractNamed "Repository"))) :=
  (disjoint_declaredNames_iff
    (by decide +kernel) (by decide +kernel)
    (by decide) (.inl (by decide)) (by decide) (by decide)).mpr (by decide +kernel)

/-- Two names that differ in the case of their first letter have one backing
type, and the contract named by the suffix alone shares its names without a
prefix with the one named by the suffix twice. -/
theorem declaredNames_shared :
    (IsContractName (contractNamed "FooRepository").name ∧
      IsContractName (contractNamed "fooRepository").name ∧
      (contractNamed "FooRepository").name ≠ (contractNamed "fooRepository").name ∧
      ¬ (Go.declaredNames (render "users" (contractNamed "FooRepository"))).Disjoint
        (Go.declaredNames (render "users" (contractNamed "fooRepository")))) ∧
    (IsContractName (contractNamed "Repository").name ∧
      IsContractName (contractNamed "RepositoryRepository").name ∧
      (contractNamed "Repository").name ≠ (contractNamed "RepositoryRepository").name ∧
      ¬ (Go.declaredNames (render "users" (contractNamed "Repository"))).Disjoint
        (Go.declaredNames (render "users" (contractNamed "RepositoryRepository")))) := by
  have backing : ("fooRepositoryImpl" : Text) ∈
      Go.declaredNames (render "users" (contractNamed "FooRepository")) ∧
      ("fooRepositoryImpl" : Text) ∈
        Go.declaredNames (render "users" (contractNamed "fooRepository")) := by decide +kernel
  have options : ("Options" : Text) ∈
      Go.declaredNames (render "users" (contractNamed "Repository")) ∧
      ("Options" : Text) ∈
        Go.declaredNames (render "users" (contractNamed "RepositoryRepository")) := by
    decide +kernel
  exact ⟨⟨by decide +kernel, by decide +kernel,
      by decide, fun apart => apart backing.1 backing.2⟩,
    ⟨by decide +kernel, by decide +kernel,
      by decide, fun apart => apart options.1 options.2⟩⟩

end DependencyBlock

end Scaffold
