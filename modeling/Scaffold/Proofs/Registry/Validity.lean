import Scaffold.Proofs.Registry.Reading

/-!
# Registries that are Go files

A registry is a Go file of its package exactly if its package and everything it
refers to can be named in Go, provided that its paths stand on one line each and
between quotes.
-/

namespace Scaffold

open Go (IsIdentifier)

namespace Contract

variable {contract : Contract}

theorem shortName_prefix (contract : Contract) : contract.shortName <+: contract.name := by
  unfold shortName
  split
  · exact List.take_prefix _ _
  · exact List.prefix_refl _

theorem shortName_ne_nil (named : contract.name ≠ []) : contract.shortName ≠ [] := by
  unfold shortName
  split
  · rename_i long
    rw [Text.dropLast, ne_eq, List.take_eq_nil_iff, not_or]
    exact ⟨Nat.sub_ne_zero_of_lt long.1, named⟩
  · exact named

/-- A name made from the name of a contract is an identifier, unless a reserved word
ends like it. -/
theorem isIdentifier_qualify (proper : IsIdentifier contract.name) {name : Text}
    (added : IsIdentifier name) (free : ∀ entry ∈ Go.keywords, ¬ name <:+ entry.1) :
    IsIdentifier (contract.qualify name) := by
  obtain ⟨starts, _, -⟩ := Go.isIdentifier_iff.mp proper
  have word := continuesName_qualify proper.isWord.word added.isWord.word
  unfold qualify at word ⊢
  split
  · exact added
  · rename_i own
    rw [if_neg own] at word
    refine Go.isIdentifier_iff.mpr ⟨?_, List.all_eq_true.mpr word, fun entry listed same => ?_⟩
    · obtain ⟨rest, whole⟩ := contract.shortName_prefix
      have short := shortName_ne_nil proper.ne_nil
      rw [← whole, List.head?_append_of_ne_nil _ short] at starts
      rwa [List.head?_append_of_ne_nil _ short]
    · exact free entry listed (same ▸ List.suffix_append _ _)

end Contract

namespace Resolver

theorem referenceName_of_unnamed {path declared : Text} (named : declared ≠ [])
    {present : List Import} (unnamed : (freshImport path declared present).name = []) :
    (freshImport path declared present).referenceName = declared := by
  unfold freshImport at unnamed ⊢
  dsimp only at unnamed ⊢
  split at unnamed
  · rename_i same
    rw [if_pos same]
    have base : declared = Path.baseName path := by
      by_contra other
      simp [preferredName, named, other] at unnamed
    rw [Import.referenceName, if_pos (by simpa using unnamed), Import.defaultName, base]
  · rename_i changed
    exact absurd unnamed (FreshName.choose_ne_nil changed)

end Resolver

namespace Registry

open Go

/-! ## Imports -/

variable {resolver : Resolver} {current directory : Text} {implementations : List Implementation}

/-- The imports that a registry makes. -/
def collected (resolver : Resolver) (directory : Text) (implementations : List Implementation) :
    List Import :=
  (references resolver (Path.normalize directory) [libraries.options] []
    (sort implementations)).1

/-- The package is imported under a name of letters, digits and low lines, and under
an identifier where the name is its own. -/
structure IsNamed (spec : Import) : Prop where
  word : IsWord spec.referenceName
  own : spec.name = [] → IsIdentifier spec.referenceName

theorem IsNamed.hasName_iff {spec : Import} (isNamed : IsNamed spec) :
    spec.HasName ↔ IsIdentifier spec.referenceName := by
  by_cases unnamed : spec.name = []
  · exact ⟨fun _ => isNamed.own unnamed, fun _ => .inl unnamed⟩
  · have same : spec.referenceName = spec.name := by
      rw [Import.referenceName, if_neg (by simpa using unnamed)]
    rw [same]
    refine ⟨fun hasName => ?_, hasName_of_isIdentifier⟩
    rcases hasName with nothing | dot | ⟨isName, found⟩
    · exact absurd nothing unnamed
    · have word := isNamed.word.word '.' (by simp [same, dot])
      exact absurd word (by decide)
    · exact isIdentifier_of_piece? isName found

theorem isNamed_resolve {known : List Import} (all : ∀ spec ∈ known, IsNamed spec)
    (path : Text) {declared : Text} (proper : IsIdentifier declared) :
    IsNamed (resolver.resolve path declared known) := by
  rw [Resolver.resolve]
  split
  · rename_i spec found
    exact all spec (List.mem_of_find?_eq_some found)
  · exact ⟨Resolver.isWord_freshImport _ proper.isWord known, fun unnamed =>
      (Resolver.referenceName_of_unnamed proper.ne_nil unnamed).symm ▸ proper⟩

/-- The names in a registry come from identifiers. -/
def AreNamed (implementations : List Implementation) : Prop :=
  ∀ implementation ∈ implementations,
    IsIdentifier implementation.packageName ∧ IsIdentifier implementation.contract.name

theorem isNamed_collected (named : AreNamed implementations) :
    ∀ spec ∈ collected resolver directory implementations, IsNamed spec := by
  have start : ∀ spec ∈ [libraries.options], IsNamed spec :=
    List.forall_mem_singleton.mpr
      ⟨IsIdentifier.isWord (by decide +kernel), fun _ => by decide +kernel⟩
  exact (@references_induction resolver (Path.normalize directory)
    (fun known _ => ∀ spec ∈ known, IsNamed spec) (fun _ all => all) (sort implementations)
    (fun implementation member _ _ _ all spec listed => by
      rcases Merge.eq_or_mem_of_mem_withImport listed with rfl | old
      · exact isNamed_resolve all _ (named _ ((Sorting.mem_sort _).mp member)).1
      · exact all spec old) _ _ start).1

/-! ## The text -/

/-- The name in the package clause of a registry. -/
def clauseName (resolver : Resolver) (directory : Text) (implementations : List Implementation) :
    Text :=
  packageName resolver (Path.normalize directory) (sort implementations)

/-- The package of a registry is that of the implementations in its directory.
Without any it is named after the directory. -/
structure IsPackageOf (resolver : Resolver) (directory : Text)
    (implementations : List Implementation) (package : Text) : Prop where
  own : ∀ implementation ∈ implementations,
    Path.normalize implementation.packagePath = Path.normalize directory →
      implementation.packageName = package
  derived : (∀ implementation ∈ implementations,
      Path.normalize implementation.packagePath ≠ Path.normalize directory) →
    package = resolver.packageName (Path.normalize directory)

theorem isPackageOf_clauseName
    (alike : ∀ first ∈ implementations, ∀ second ∈ implementations,
      Path.normalize first.packagePath = Path.normalize second.packagePath →
        first.packageName = second.packageName) :
    IsPackageOf resolver directory implementations
      (clauseName resolver directory implementations) := by
  unfold clauseName packageName
  cases found : (sort implementations).find? fun implementation =>
      Path.normalize implementation.packagePath = Path.normalize directory with
  | some implementation =>
      have here : Path.normalize implementation.packagePath = Path.normalize directory := by
        simpa using List.find?_some found
      have member := (Sorting.mem_sort _).mp (List.mem_of_find?_eq_some found)
      exact ⟨fun other listed same => alike other listed implementation member
        (same.trans here.symm), fun none => absurd here (none implementation member)⟩
  | none =>
      refine ⟨fun implementation member same => ?_, fun _ => rfl⟩
      have elsewhere := List.find?_eq_none.mp found implementation ((Sorting.mem_sort _).mpr member)
      exact absurd same (by simpa using elsewhere)

/-- What a registry refers to can be named in Go, and so can its directory if its
package is named after it. -/
structure IsNameable (resolver : Resolver) (directory : Text)
    (implementations : List Implementation) : Prop where
  package : (∀ implementation ∈ implementations,
      Path.normalize implementation.packagePath ≠ Path.normalize directory) →
    IsIdentifier (resolver.packageName (Path.normalize directory))
  imports : ∀ spec ∈ collected resolver directory implementations,
    IsIdentifier spec.referenceName

theorem isNameable_iff (named : AreNamed implementations) {package : Text}
    (isPackage : IsPackageOf resolver directory implementations package) :
    IsNameable resolver directory implementations ↔
      IsIdentifier package ∧ ∀ spec ∈ collected resolver directory implementations,
        IsIdentifier spec.referenceName := by
  constructor
  · rintro ⟨derived, names⟩
    refine ⟨?_, names⟩
    by_cases none : ∀ implementation ∈ implementations,
        Path.normalize implementation.packagePath ≠ Path.normalize directory
    · rw [isPackage.derived none]
      exact derived none
    · obtain ⟨implementation, member, here⟩ : ∃ implementation ∈ implementations,
          Path.normalize implementation.packagePath = Path.normalize directory := by
        simpa using none
      rw [← isPackage.own implementation member here]
      exact (named implementation member).1
  · rintro ⟨proper, names⟩
    exact ⟨fun none => isPackage.derived none ▸ proper, names⟩

/-- The paths in a registry can be written down: those of its imports between quotes,
and those of its directives on one line. -/
structure IsWritable (resolver : Resolver) (current directory : Text)
    (implementations : List Implementation) : Prop where
  imports : ∀ spec ∈ collected resolver directory implementations,
    piece? spec.quotedPath = some (.lexeme .interpreted spec.quotedPath)
  directives : ∀ directives,
    mockDirectives current (Path.normalize directory) (sort implementations) = .ok directives →
      AreInLine directives

variable {rendered : Text}

theorem exists_textOf_of_render
    (result : render resolver current directory none implementations = .ok rendered) :
    ∃ directives,
      mockDirectives current (Path.normalize directory) (sort implementations) = .ok directives ∧
        rendered = textOf (clauseName resolver directory implementations) directives
          (ImportBlock.render resolver.module.path []
            ((collected resolver directory implementations).map fun spec => ⟨spec, []⟩))
          ((sort implementations).map (entry (references resolver (Path.normalize directory)
            [libraries.options] [] (sort implementations)).2)) := by
  unfold render at result
  dsimp only at result
  split at result
  · simp at result
  · rename_i directives listed
    refine ⟨directives, listed, ?_⟩
    rw [← Except.ok.inj result, optionsLines_eq]
    rfl

theorem isIdentifier_optionsName {implementation : Implementation}
    (proper : IsIdentifier implementation.contract.name) :
    IsIdentifier implementation.optionsName := by
  have added : IsIdentifier ("Options" : Text) := by decide +kernel
  have free : ∀ entry ∈ keywords, ¬ ("Options" : Text) <:+ entry.1 := by decide +kernel
  exact Contract.isIdentifier_qualify proper added free

theorem isSelector_of_enters {known : List Import} {path options entry : Text}
    (enters : Enters resolver directory known path options entry)
    (proper : IsIdentifier options) (names : ∀ spec ∈ known, IsIdentifier spec.referenceName) :
    IsSelector entry := by
  cases enters with
  | own here => exact .own proper
  | imported elsewhere listed leads => exact .selected (names _ listed) proper

theorem areApart_collected (named : AreNamed implementations) :
    AreApart resolver (Path.normalize directory) implementations
        (collected resolver directory implementations) ∧
      ∀ implementation ∈ sort implementations,
        Enters resolver (Path.normalize directory)
          (collected resolver directory implementations) implementation.packagePath
          implementation.optionsName (entry (references resolver (Path.normalize directory)
            [libraries.options] [] (sort implementations)).2 implementation) :=
  references_areApart resolver (Path.normalize directory)
    (fun _ member => (Sorting.mem_sort _).mp member)
    fun implementation member => (named implementation member).1.ne_nil

/-- The block of a registry declares the imports that are collected for it. -/
theorem exists_isDeclarationText_collected (named : AreNamed implementations)
    (writable : IsWritable resolver current directory implementations)
    (names : ∀ spec ∈ collected resolver directory implementations,
      IsIdentifier spec.referenceName) :
    ∃ imports body,
      IsDeclarationText (ImportBlock.render resolver.module.path []
          ((collected resolver directory implementations).map fun spec => ⟨spec, []⟩))
        imports body ∧
      imports.Perm (collected resolver directory implementations) := by
  have apart := (@areApart_collected resolver directory _ named).1
  have clean : ∀ line ∈ (collected resolver directory implementations).map
      fun spec => (⟨spec, []⟩ : ImportLine), IsClean line := by
    intro line member
    obtain ⟨spec, known, rfl⟩ := List.mem_map.mp member
    exact ⟨⟨(isNamed_collected named spec known).hasName_iff.mpr (names spec known),
      writable.imports spec known⟩, isSkipped_nil⟩
  have something : (collected resolver directory implementations).map
      (fun spec => (⟨spec, []⟩ : ImportLine)) ≠ [] := by
    simpa using List.ne_nil_of_mem apart.options
  obtain ⟨imports, body, isText, distinct, same⟩ :=
    @exists_isDeclarationText_render resolver.module.path [] _ something (by simp) clean
  refine ⟨imports, body, isText, ?_⟩
  refine (List.perm_ext_iff_of_nodup distinct (List.Nodup.of_map _ apart.paths)).mpr
    fun spec => (same spec).trans ?_
  simp [Function.comp_def]

/-- A registry with names from identifiers and with paths that can be written down is
read as a file of its package that makes the imports of the registry exactly if its
package and all its imports are named by identifiers. -/
theorem isReadAs_render_iff (named : AreNamed implementations)
    (writable : IsWritable resolver current directory implementations)
    (result : render resolver current directory none implementations = .ok rendered) :
    IsReadAs rendered (clauseName resolver directory implementations)
        (collected resolver directory implementations) ↔
      IsIdentifier (clauseName resolver directory implementations) ∧
        ∀ spec ∈ collected resolver directory implementations,
          IsIdentifier spec.referenceName := by
  have isNamed := @isNamed_collected resolver directory _ named
  constructor
  · rintro ⟨file, read, clause, imports⟩
    exact ⟨SourceFile.isIdentifier_packageName read clause, fun spec listed =>
      (isNamed spec listed).hasName_iff.mp
        (SourceFile.hasName_of_mem_imports read spec (imports.mem_iff.mpr listed))⟩
  · rintro ⟨proper, names⟩
    obtain ⟨directives, made, rfl⟩ := exists_textOf_of_render result
    obtain ⟨imports, body, isText, perm⟩ :=
      exists_isDeclarationText_collected named writable names
    have selectors : ∀ text ∈ (sort implementations).map (entry (references resolver
        (Path.normalize directory) [libraries.options] [] (sort implementations)).2),
        IsSelector text := by
      intro text member
      obtain ⟨implementation, inside, rfl⟩ := List.mem_map.mp member
      have contract := (named implementation ((Sorting.mem_sort _).mp inside)).2
      exact isSelector_of_enters ((areApart_collected named).2 implementation inside)
        (isIdentifier_optionsName contract) names
    obtain ⟨file, read, clause, found⟩ :=
      isReadAs_textOf proper (writable.directives directives made) isText selectors
    exact ⟨file, read, clause, found.trans perm⟩

end Registry

end Scaffold
