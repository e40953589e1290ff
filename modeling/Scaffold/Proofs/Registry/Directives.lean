import Scaffold.Proofs.Path.Arrival
import Scaffold.Proofs.Registry.Order

/-!
# Directives lead to their files

A directive names the file of a contract and the file of its mocks by the ways
that lead there from the directory of the registry.  Followed from that
directory they arrive at these files, wherever the directories lie, and every
directive of a registry belongs to one of its implementations.
-/

namespace Scaffold

namespace Registry

variable {current directory : Text}

namespace Directive

variable {implementation : Implementation} {directive : Directive}

/-- From the directory of the registry, the directive leads to the file that
declares the contract and to the file in the mocks of its package. -/
structure LeadsTo (current directory : Text) (implementation : Implementation)
    (directive : Directive) : Prop where
  source :
    Path.absolute current (Path.join directory directive.source) =
      Path.absolute current implementation.contract.definitionPath
  destination :
    Path.absolute current (Path.join directory directive.destination) =
      Path.absolute current
        (Path.join (Path.join implementation.packagePath mocksDirectory)
          implementation.contract.fileName)

/-- The contract has a file, and its path and that of the package are relative. -/
structure IsRelative (implementation : Implementation) : Prop where
  declared : implementation.contract.definitionPath ≠ []
  definition : Path.isAbsolute implementation.contract.definitionPath = false
  package : Path.isAbsolute implementation.packagePath = false

theorem IsRelative.isAbsolute_fileName (relative : IsRelative implementation) :
    Path.isAbsolute implementation.contract.fileName = false := by
  rw [← Bool.not_eq_true]
  intro absolute
  have outside : implementation.contract.definitionPath = implementation.contract.fileName := by
    simp [Contract.definitionPath, Path.join, absolute]
  have kept := relative.definition
  rw [outside, absolute] at kept
  cases kept

theorem IsRelative.isAbsolute_mocks (relative : IsRelative implementation) :
    Path.isAbsolute (Path.join (Path.join implementation.packagePath mocksDirectory)
      implementation.contract.fileName) = false :=
  Path.isAbsolute_join_of_relative
    (Path.isAbsolute_join_of_relative relative.package (by decide))
    relative.isAbsolute_fileName

theorem exists_of_isRelative (current directory : Text) (relative : IsRelative implementation) :
    ∃ directive, ofImplementation? current directory implementation = some directive := by
  simp [ofImplementation?, relative.declared]

theorem leadsTo_of_ofImplementation? (rooted : Path.isAbsolute current = true)
    (beside : Path.isAbsolute directory = false) (relative : IsRelative implementation)
    (made : ofImplementation? current directory implementation = some directive) :
    LeadsTo current directory implementation directive := by
  unfold ofImplementation? at made
  dsimp only at made
  rw [List.isEmpty_eq_false_iff.mpr relative.declared] at made
  obtain rfl := Option.some.inj made
  constructor
  · exact Path.absolute_join_relative rooted beside relative.definition
  · exact Path.absolute_join_relative rooted beside relative.isAbsolute_mocks

end Directive

/-- The directives of a registry ascend strictly, every implementation has one
that leads to its files, and there are no others. -/
theorem mockDirectives_leadTo {implementations : List Implementation}
    (rooted : Path.isAbsolute current = true) (beside : Path.isAbsolute directory = false)
    (relative : ∀ implementation ∈ implementations, Directive.IsRelative implementation) :
    ∃ directives, mockDirectives current directory implementations = .ok directives ∧
      directives.Pairwise (fun left right => Directive.order left right = .lt) ∧
      (∀ implementation ∈ implementations, ∃ directive ∈ directives,
        Directive.LeadsTo current directory implementation directive) ∧
      ∀ directive ∈ directives, ∃ implementation ∈ implementations,
        Directive.ofImplementation? current directory implementation = some directive ∧
          Directive.LeadsTo current directory implementation directive := by
  have all : (implementations.all fun implementation =>
      (Directive.ofImplementation? current directory implementation).isSome) = true := by
    rw [List.all_eq_true]
    intro implementation member
    exact Option.isSome_iff_exists.mpr
      (Directive.exists_of_isRelative current directory (relative _ member))
  refine ⟨_, by rw [mockDirectives_eq, if_pos all], ?_, ?_, ?_⟩
  · exact Sorting.pairwise_lt_sort Directive.order (Sorting.nodup_distinct _)
  · intro implementation member
    obtain ⟨directive, made⟩ :=
      Directive.exists_of_isRelative current directory (relative _ member)
    refine ⟨directive, ?_, Directive.leadsTo_of_ofImplementation? rooted beside
      (relative _ member) made⟩
    rw [Sorting.mem_sort, Sorting.mem_distinct]
    exact List.mem_filterMap.mpr ⟨implementation, member, made⟩
  · intro directive listed
    rw [Sorting.mem_sort, Sorting.mem_distinct] at listed
    obtain ⟨implementation, member, made⟩ := List.mem_filterMap.mp listed
    exact ⟨implementation, member, made,
      Directive.leadsTo_of_ofImplementation? rooted beside (relative _ member) made⟩

/-- Two contracts of one file, seen from a registry above the current directory,
and one in a file that is given by a detour. -/
def scattered : List Implementation :=
  [{ contract := { name := "ARepository", packagePath := "../../api", fileName := "x.go" }
     packagePath := "i" },
    { contract := { name := "BRepository", packagePath := "../../api", fileName := "x.go" }
      packagePath := "i" },
    { contract := { name := "Repository", packagePath := "a/./b//..", fileName := "y.go" }
      packagePath := "../gen/i/" }]

theorem mockDirectives_leadTo_scattered :
    Path.isAbsolute "/home/p" = true ∧ Path.isAbsolute "../gen/." = false ∧
      (∀ implementation ∈ scattered, Directive.IsRelative implementation) ∧
      ∃ directives, mockDirectives "/home/p" "../gen/." scattered = .ok directives ∧
        directives.Pairwise (fun left right => Directive.order left right = .lt) ∧
        (∀ implementation ∈ scattered, ∃ directive ∈ directives,
          Directive.LeadsTo "/home/p" "../gen/." implementation directive) ∧
        ∀ directive ∈ directives, ∃ implementation ∈ scattered,
          Directive.ofImplementation? "/home/p" "../gen/." implementation = some directive ∧
            Directive.LeadsTo "/home/p" "../gen/." implementation directive := by
  have relative : ∀ implementation ∈ scattered, Directive.IsRelative implementation := by
    simp only [scattered, List.forall_mem_cons]
    exact ⟨⟨by decide, by decide, by decide⟩, ⟨by decide, by decide, by decide⟩,
      ⟨by decide, by decide, by decide⟩, fun _ member => absurd member List.not_mem_nil⟩
  exact ⟨by decide, by decide, relative, mockDirectives_leadTo (by decide) (by decide) relative⟩

example :
    (mockDirectives "/home/p" "../gen/." scattered).toOption =
      some [⟨"../../api/x.go", "../p/i/mocks/x.go"⟩, ⟨"../p/a/y.go", "i/mocks/y.go"⟩] := by
  decide +kernel

end Registry

end Scaffold
