import Scaffold.Proofs.Merge.Binding
import Scaffold.Proofs.Module.Resolver

/-!
# Imports that clash

Two imports of different packages clash if both bind the same name.  A contract's
package gets a name that no known import has, so these imports never clash with
each other or with those of the file.  What else is added is not checked, and it
alone decides whether the names of a file stay distinct.
-/

namespace Scaffold

namespace Import

/-- Two imports bind one name to different packages. -/
def Clashes (left right : Import) : Prop :=
  left.path ≠ right.path ∧ ∃ name, left.Binds name ∧ right.Binds name

theorem Clashes.symm {left right : Import} (clash : left.Clashes right) :
    right.Clashes left := by
  obtain ⟨different, name, first, second⟩ := clash
  exact ⟨different.symm, name, second, first⟩

theorem Clashes.referenceName_eq {left right : Import} (clash : left.Clashes right) :
    left.referenceName = right.referenceName := by
  obtain ⟨_, name, first, second⟩ := clash
  exact first.1.trans second.1.symm

end Import

namespace Merge

open Go (CutFault FileLayout SourceFile)

/-- No two imports clash. -/
def DistinctNames (imports : List Import) : Prop :=
  ∀ left ∈ imports, ∀ right ∈ imports, ¬ left.Clashes right

theorem DistinctNames.subset {fewer imports : List Import} (distinct : DistinctNames imports)
    (covered : ∀ spec ∈ fewer, spec ∈ imports) : DistinctNames fewer :=
  fun left first right second => distinct left (covered left first) right (covered right second)

/-! ## Imports of the contracts' packages -/

variable {resolver : Resolver} {known : List Import}

theorem mem_withImport_of_mem {spec other : Import} (member : other ∈ known) :
    other ∈ withImport spec known := by
  rw [withImport]
  split
  · exact member
  · exact List.mem_append_left _ member

theorem eq_or_mem_of_mem_withImport {spec other : Import} (member : other ∈ withImport spec known) :
    other = spec ∨ other ∈ known := by
  rw [withImport] at member
  split at member
  · exact .inr member
  · exact (List.mem_append.mp member).symm.imp List.mem_singleton.mp id

theorem nodup_map_withImport {Key : Type} {key : Import → Key} {spec : Import}
    (different : (known.map key).Nodup)
    (new : (∀ other ∈ known, other.path ≠ spec.path) → key spec ∉ known.map key) :
    ((withImport spec known).map key).Nodup := by
  rw [withImport]
  split
  · exact different
  · rename_i absent
    rw [List.map_append]
    exact different.append (List.nodup_singleton _)
      (List.disjoint_singleton.mpr (new (by simpa using absent)))

theorem resolve_mem_withImport (directory declared : Text) :
    resolver.resolve directory declared known ∈
      withImport (resolver.resolve directory declared known) known := by
  rcases resolver.resolve_mem_or_fresh directory declared known with member | ⟨absent, _⟩
  · exact mem_withImport_of_mem member
  · rw [withImport, if_neg]
    · exact List.mem_append_right _ List.mem_cons_self
    · simpa using absent

/-- The import of one more package has a name of its own, unless it is known. -/
theorem nodup_referenceName_withImport (different : (known.map Import.referenceName).Nodup)
    (resolver : Resolver) (directory declared : Text) :
    ((withImport (resolver.resolve directory declared known) known).map
      Import.referenceName).Nodup := by
  refine nodup_map_withImport different fun absent => ?_
  rcases resolver.resolve_mem_or_fresh directory declared known with member | ⟨_, free⟩
  · exact absurd rfl (absent _ member)
  · exact free

theorem distinctNames_withImport (distinct : DistinctNames known)
    (resolver : Resolver) (directory declared : Text) :
    DistinctNames (withImport (resolver.resolve directory declared known) known) := by
  rcases resolver.resolve_mem_or_fresh directory declared known with member | ⟨_, free⟩
  · apply distinct.subset
    intro spec listed
    rcases eq_or_mem_of_mem_withImport listed with rfl | old
    · exact member
    · exact old
  · have apart : ∀ spec ∈ known,
        ¬ spec.Clashes (resolver.resolve directory declared known) := by
      intro spec old clash
      exact free (clash.referenceName_eq ▸ List.mem_map_of_mem old)
    intro left first right second
    rcases eq_or_mem_of_mem_withImport first with rfl | oldLeft
    · rcases eq_or_mem_of_mem_withImport second with rfl | oldRight
      · exact fun clash => clash.1 rfl
      · exact fun clash => apart right oldRight clash.symm
    · rcases eq_or_mem_of_mem_withImport second with rfl | oldRight
      · exact apart left oldLeft
      · exact distinct left oldLeft right oldRight

/-- The imports of all planned packages are distinct from each other and from the
known ones. -/
theorem distinctNames_plan (resolver : Resolver) (implementations : List Implementation) :
    ∀ known, DistinctNames known →
      DistinctNames
        (known ++ (plan resolver known implementations).map Addition.contractImport) := by
  induction implementations with
  | nil =>
      intro known distinct
      simpa [plan] using distinct
  | cons implementation rest induction =>
      intro known distinct
      have later := induction _
        (distinctNames_withImport distinct resolver
          implementation.contract.packagePath implementation.contract.packageName)
      apply later.subset
      intro spec member
      rw [plan, List.map_cons] at member
      rcases List.mem_append.mp member with old | new
      · exact List.mem_append_left _ (mem_withImport_of_mem old)
      · rcases List.mem_cons.mp new with rfl | planned
        · exact List.mem_append_left _ (resolve_mem_withImport _ _)
        · exact List.mem_append_right _ planned

/-! ## All imports of the merged text -/

/-- What is asked for is the contract's package, one of the libraries, or what a
type mentions among the imports of the contract's file. -/
theorem origin_of_required {addition : Addition} {spec : Import}
    (asked : spec ∈ addition.requiredImports) :
    spec = addition.contractImport ∨
      spec ∈ [libraries.options, libraries.context, libraries.tracing, libraries.codes,
        libraries.errors] ∨
      spec ∈ addition.implementation.contract.imports := by
  rcases Addition.mem_requiredImports.mp asked with ⟨_, rfl | contract⟩ | ⟨method, _, needed⟩
  · exact .inr (.inl (by simp))
  · exact .inl contract
  · rcases Addition.mem_methodImports.mp needed with
      ⟨_, contract⟩ | ⟨_, rfl | rfl⟩ | ⟨_, _, rfl⟩ | ⟨_, rfl⟩ | ⟨known, _⟩
    · exact .inl contract
    · exact .inr (.inl (by simp))
    · exact .inr (.inl (by simp))
    · exact .inr (.inl (by simp))
    · exact .inr (.inl (by simp))
    · exact .inr (.inr known)

/-- An added import that is not that of a contract's package. -/
def IsUnchecked (additions : List Addition) (spec : Import) : Prop :=
  spec ∉ additions.map Addition.contractImport

theorem origin_of_unchecked
    {resolver : Resolver} {layout : FileLayout} {implementations : List Implementation}
    {spec : Import} (new : spec ∈ added resolver layout implementations)
    (unchecked : IsUnchecked (additions resolver layout implementations) spec) :
    spec ∈ [libraries.options, libraries.context, libraries.tracing, libraries.codes,
        libraries.errors] ∨
      ∃ implementation ∈ implementations, spec ∈ implementation.contract.imports := by
  obtain ⟨asked, _⟩ := mem_newImports new
  obtain ⟨addition, planned, needed⟩ := List.mem_flatMap.mp asked
  rcases origin_of_required needed with rfl | library | known
  · exact absurd (List.mem_map_of_mem planned) unchecked
  · exact .inl library
  · have listed : addition.implementation ∈ implementations := by
      rw [← map_implementation_plan resolver implementations layout.imports]
      exact List.mem_map_of_mem planned
    exact .inr ⟨addition.implementation, listed, known⟩

/-- The names stay distinct exactly if no import clashes that is added for
generated code or for a type of a contract's file. -/
theorem distinctNames_added_iff
    {resolver : Resolver} {layout : FileLayout} (implementations : List Implementation)
    (distinct : DistinctNames layout.imports) :
    DistinctNames (layout.imports ++ added resolver layout implementations) ↔
      ∀ spec ∈ added resolver layout implementations,
        IsUnchecked (additions resolver layout implementations) spec →
        ∀ other ∈ layout.imports ++ added resolver layout implementations,
          ¬ spec.Clashes other := by
  constructor
  · intro all spec new _ other listed
    exact all spec (List.mem_append_right _ new) other listed
  · intro apart left first right second clash
    have checked := distinctNames_plan resolver implementations layout.imports distinct
    -- An import that clashes is unchecked only if it is ruled out on its own.
    have known : ∀ spec ∈ layout.imports ++ added resolver layout implementations,
        (∃ other ∈ layout.imports ++ added resolver layout implementations,
          spec.Clashes other) →
        spec ∈ layout.imports ++
          (additions resolver layout implementations).map Addition.contractImport := by
      rintro spec listed ⟨other, present, clash⟩
      rcases List.mem_append.mp listed with old | new
      · exact List.mem_append_left _ old
      · by_contra foreign
        have unchecked : IsUnchecked (additions resolver layout implementations) spec :=
          fun planned => foreign (List.mem_append_right _ planned)
        exact apart spec new unchecked other present clash
    exact checked left (known left first ⟨right, second, clash⟩) right
      (known right second ⟨left, first, clash.symm⟩) clash

/-- Where the imports of a file have distinct names, those of the merged text
have them exactly if no import clashes that is added without a check: one that
generated code needs, or one of a contract's file. -/
theorem distinctNames_merge_iff
    {source? : Option Bytes} {implementations : List Implementation} {layout : FileLayout}
    {previous? : Option Text}
    (accepted : read source? implementations = .ok (layout, previous?))
    (distinct : DistinctNames layout.imports) (resolver : Resolver) (path : Text) :
    ∃ merged, merge resolver path source? implementations = .ok merged ∧
      HasSection layout previous? (added resolver layout implementations) merged.text ∧
      (DistinctNames (layout.imports ++ added resolver layout implementations) ↔
        ∀ spec ∈ added resolver layout implementations,
          IsUnchecked (additions resolver layout implementations) spec →
          ∀ other ∈ layout.imports ++ added resolver layout implementations,
            ¬ spec.Clashes other) ∧
      ∀ spec ∈ added resolver layout implementations,
        IsUnchecked (additions resolver layout implementations) spec →
        spec ∈ [libraries.options, libraries.context, libraries.tracing, libraries.codes,
            libraries.errors] ∨
          ∃ implementation ∈ implementations, spec ∈ implementation.contract.imports := by
  refine ⟨complete resolver path layout previous? implementations, ?_,
    hasSection_complete accepted resolver path,
    distinctNames_added_iff implementations distinct,
    fun spec new unchecked => origin_of_unchecked new unchecked⟩
  rw [merge, accepted]

/-- A file that has its own `codes`. -/
def codesSource : Text :=
  "package usersimpl\n\nimport \"google.golang.org/grpc/codes\"\n\n" ++
    "type userRepositoryImpl codes.Code\n"

def codesLayout : FileLayout where
  head := "package usersimpl\n"
  tail := "\n\ntype userRepositoryImpl codes.Code\n"
  lines := [⟨⟨"google.golang.org/grpc/codes", []⟩, []⟩]
  hasSection := true

theorem read_codesSource (implementations : List Implementation) :
    read (some (Utf8.encode codesSource)) implementations =
      .ok (codesLayout, some codesSource) := by
  have accepted : FileLayout.ofSource (Utf8.encode codesSource) = .ok codesLayout := by
    decide +kernel
  simp only [read, accepted, Utf8.decode_encode]
  rfl

theorem distinctNames_codesLayout : DistinctNames codesLayout.imports := by
  intro left first right second clash
  rw [List.mem_singleton.mp first, List.mem_singleton.mp second] at clash
  exact clash.1 rfl

/-- An implementation that lacks a method with a context and an error. -/
def failingImplementation : Implementation where
  contract :=
    { name := "UserRepository", packageName := "users", packagePath := "api/users",
      fileName := "users.go",
      methods := [{ name := "Find", parameters := [⟨"ctx", "context.Context"⟩],
                    results := [⟨[], "error"⟩] }],
      imports := [⟨"context", []⟩] }
  packageName := "usersimpl"
  packagePath := "internal/users"
  fileName := "f.go"

theorem distinctNames_merge_iff_codes :
    read (some (Utf8.encode codesSource)) [failingImplementation] =
        .ok (codesLayout, some codesSource) ∧
      DistinctNames codesLayout.imports ∧
      ∃ merged, merge plainResolver "f.go" (some (Utf8.encode codesSource))
          [failingImplementation] = .ok merged ∧
        HasSection codesLayout (some codesSource)
          (added plainResolver codesLayout [failingImplementation]) merged.text := by
  have accepted := read_codesSource [failingImplementation]
  obtain ⟨merged, run, shown, _⟩ :=
    distinctNames_merge_iff accepted distinctNames_codesLayout plainResolver "f.go"
  exact ⟨accepted, distinctNames_codesLayout, merged, run, shown⟩

/-- The merged text imports a second package as `codes`. -/
theorem codes_bound_twice :
    DistinctNames codesLayout.imports ∧
      (∃ merged, merge plainResolver "f.go" (some (Utf8.encode codesSource))
          [failingImplementation] = .ok merged ∧
        HasSection codesLayout (some codesSource)
          (added plainResolver codesLayout [failingImplementation]) merged.text) ∧
      ¬ DistinctNames
        (codesLayout.imports ++ added plainResolver codesLayout [failingImplementation]) := by
  have accepted := read_codesSource [failingImplementation]
  refine ⟨distinctNames_codesLayout,
    ⟨complete plainResolver "f.go" codesLayout (some codesSource) [failingImplementation], ?_,
      hasSection_complete accepted plainResolver "f.go"⟩, ?_⟩
  · rw [merge, accepted]
  · intro distinct
    have old : ⟨"google.golang.org/grpc/codes", []⟩ ∈ codesLayout.imports ++
        added plainResolver codesLayout [failingImplementation] := by
      decide +kernel
    have new : libraries.codes ∈ codesLayout.imports ++
        added plainResolver codesLayout [failingImplementation] := by
      decide +kernel
    refine distinct _ old _ new ⟨by decide, "codes", ?_, ?_⟩ <;> decide

end Merge

end Scaffold
