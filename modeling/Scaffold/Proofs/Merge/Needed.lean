import Scaffold.Proofs.Implementation.StubText
import Scaffold.Proofs.Merge.Clashes

/-!
# Imports that appended code needs

Every added import is asked for by a block or a stub that mentions its name, and
everything that the blocks and stubs refer to is asked for.  Only a name with a
blank in it can be taken for one that stands at the seam of two types.
-/

namespace Scaffold

open Go (IsPackageName IsQualifier)
open Qualification (IsMentionable StandsIn)

namespace Go

theorem IsQualifier.isMentionable {name : Text} (usable : IsQualifier name) :
    IsMentionable name where
  named := usable.named
  visible := usable.visible
  separate := fun same => by
    have dot := usable.word '.' (same ▸ List.mem_singleton_self '.')
    exact absurd dot (by decide)

end Go

namespace Merge

open Go (FileLayout)

variable {resolver : Resolver} {layout : FileLayout} {implementations : List Implementation}

/-! ## The packages of contracts -/

/-- The import is one of the given ones, or its name can be written before a
dot. -/
def IsUsable (present : List Import) (spec : Import) : Prop :=
  spec ∈ present ∨ IsQualifier spec.referenceName

/-- The import of a contract's package is one of the file's or has a usable
name, whatever was planned before. -/
theorem isUsable_of_mem_plan {present : List Import}
    (named : ∀ implementation ∈ implementations,
      IsPackageName implementation.contract.packageName) :
    ∀ known, (∀ spec ∈ known, IsUsable present spec) →
      ∀ addition ∈ plan resolver known implementations,
        IsUsable present addition.contractImport := by
  induction implementations with
  | nil => exact fun _ _ _ member => absurd member List.not_mem_nil
  | cons implementation rest induction =>
      intro known given addition member
      have resolved : IsUsable present (resolver.resolve implementation.contract.packagePath
          implementation.contract.packageName known) := by
        rw [Resolver.resolve]
        split
        · rename_i spec found
          exact given spec (List.mem_of_find?_eq_some found)
        · exact .inr (Resolver.isQualifier_freshImport _ (named _ List.mem_cons_self) known)
      rw [plan] at member
      rcases List.mem_cons.mp member with rfl | later
      · exact resolved
      · refine induction (fun other listed => named other (List.mem_cons_of_mem _ listed)) _ ?_
          addition later
        intro spec listed
        rcases eq_or_mem_of_mem_withImport listed with rfl | old
        · exact resolved
        · exact given spec old

theorem isUsable_of_mem_additions
    (named : ∀ implementation ∈ implementations,
      IsPackageName implementation.contract.packageName)
    {addition : Addition} (planned : addition ∈ additions resolver layout implementations) :
    IsUsable layout.imports addition.contractImport :=
  isUsable_of_mem_plan named layout.imports (fun _ => .inl) addition planned

theorem path_contractImport_of_mem_plan :
    ∀ known, ∀ addition ∈ plan resolver known implementations,
      addition.contractImport.path =
        resolver.importPath addition.implementation.contract.packagePath := by
  induction implementations with
  | nil => exact fun _ _ member => absurd member List.not_mem_nil
  | cons implementation rest induction =>
      intro known addition member
      rw [plan] at member
      rcases List.mem_cons.mp member with rfl | later
      · exact resolver.path_resolve _ _ _
      · exact induction _ addition later

/-! ## Paths of imports -/

theorem nodup_map_path_newImports {requests : List Import} :
    ∀ {present}, ((newImports present requests).map Import.path).Nodup := by
  induction requests with
  | nil => exact List.nodup_nil
  | cons spec rest induction =>
      intro present
      by_cases known : spec.path ∈ present
      · rw [newImports_cons_of_mem known]
        exact induction
      · rw [newImports_cons_of_not_mem known, List.map_cons, List.nodup_cons]
        refine ⟨fun member => ?_, induction⟩
        obtain ⟨other, listed, same⟩ := List.mem_map.mp member
        exact (mem_newImports listed).2 (same ▸ List.mem_cons_self)

theorem path_mem_of_mem_requests {requests : List Import} {spec : Import}
    (asked : spec ∈ requests) :
    ∀ {present}, spec.path ∈ present ∨
      spec.path ∈ (newImports present requests).map Import.path := by
  intro present
  by_cases known : spec.path ∈ present
  · exact .inl known
  · have something : (requests.find? fun other => other.path == spec.path).isSome = true :=
      List.find?_isSome.mpr ⟨spec, asked, beq_self_eq_true _⟩
    obtain ⟨first, found⟩ := Option.isSome_iff_exists.mp something
    have same : first.path = spec.path := by simpa using List.find?_some found
    rw [← same] at known found ⊢
    exact .inr (List.mem_map_of_mem (mem_newImports_iff_find?.mpr ⟨known, found⟩))

/-- The completed file imports a path. -/
def Imports (resolver : Resolver) (layout : FileLayout) (implementations : List Implementation)
    (path : Text) : Prop :=
  path ∈ (layout.imports ++ added resolver layout implementations).map Import.path

theorem imports_of_mem_requiredImports {addition : Addition} {spec : Import}
    (planned : addition ∈ additions resolver layout implementations)
    (asked : spec ∈ addition.requiredImports) :
    Imports resolver layout implementations spec.path := by
  have requested : spec ∈ required resolver layout implementations :=
    List.mem_flatMap.mpr ⟨addition, planned, asked⟩
  rw [Imports, List.map_append, List.mem_append]
  exact path_mem_of_mem_requests requested

/-! ## What the appended code mentions -/

/-- All appended code, each block behind an empty line. -/
def appended (additions : List Addition) : Text :=
  (written additions).flatMap ('\n' :: ·)

theorem block_within_appended {additions : List Addition} {block : Text}
    (member : block ∈ written additions) : block <:+: appended additions := by
  obtain ⟨before, behind, split⟩ := List.append_of_mem member
  rw [appended, split]
  exact ⟨before.flatMap ('\n' :: ·) ++ ['\n'], behind.flatMap ('\n' :: ·), by simp⟩

theorem render_mem_written {addition : Addition}
    (planned : addition ∈ additions resolver layout implementations)
    (isNew : addition.implementation.isNew = true) :
    DependencyBlock.render addition.contractImport.referenceName addition.implementation.contract ∈
      written (additions resolver layout implementations) := by
  refine List.mem_append_left _ (List.mem_map.mpr ⟨addition, ?_, rfl⟩)
  exact List.mem_filter.mpr ⟨planned, isNew⟩

theorem stub_mem_written {addition : Addition} {method : Method}
    (planned : addition ∈ additions resolver layout implementations)
    (missing : method ∈ addition.missing) :
    Stub.render addition.implementation.contract method ∈
      written (additions resolver layout implementations) := by
  refine List.mem_append_right _ (List.mem_flatMap.mpr ⟨addition, planned, ?_⟩)
  rw [← missing_of_mem_plan planned]
  exact List.mem_map_of_mem missing

/-- What the types of a missing method mention, the appended code mentions. -/
theorem refersTo_appended_of_types {addition : Addition} {method : Method} {name : Text}
    (planned : addition ∈ additions resolver layout implementations)
    (missing : method ∈ addition.missing) (whole : ' ' ∉ name)
    (mentioned : Qualification.refersTo method.types name = true) :
    Qualification.refersTo (appended (additions resolver layout implementations)) name = true := by
  obtain ⟨parameter, member, there⟩ := method.exists_type_of_refersTo whole mentioned
  have stands := (Stub.standsIn_render addition.implementation.contract method member).mono
    (block_within_appended (stub_mem_written planned missing))
  exact Qualification.refersTo_iff.mpr ⟨(Qualification.refersTo_iff.mp mentioned).1,
    Qualification.refersFrom_of_standsIn stands there⟩

/-- An added import whose name has no blanks is mentioned. -/
theorem refersTo_appended_of_mem_added
    (named : ∀ implementation ∈ implementations,
      IsPackageName implementation.contract.packageName)
    {spec : Import} (new : spec ∈ added resolver layout implementations)
    (whole : ' ' ∉ spec.referenceName) :
    Qualification.refersTo (appended (additions resolver layout implementations))
      spec.referenceName = true := by
  obtain ⟨asked, absent⟩ := mem_newImports new
  obtain ⟨addition, planned, needed⟩ := List.mem_flatMap.mp asked
  have library {name block : Text} (mentionable : IsMentionable name)
      (listed : block ∈ written (additions resolver layout implementations))
      (stands : StandsIn (name ++ ['.']) block) :
      Qualification.refersTo (appended (additions resolver layout implementations)) name = true :=
    Qualification.refersTo_of_standsIn (stands.mono (block_within_appended listed)) mentionable
  rcases Addition.mem_requiredImports.mp needed with ⟨isNew, rfl | rfl⟩ | ⟨method, missing, stub⟩
  · exact library (by constructor <;> decide) (render_mem_written planned isNew)
      (DependencyBlock.standsIn_options _ _)
  · -- The package of a contract is added under a fresh name only.
    have qualifier := (isUsable_of_mem_additions named planned).resolve_left
      fun listed => absent (List.mem_map_of_mem listed)
    exact library qualifier.isMentionable (render_mem_written planned isNew)
      (DependencyBlock.standsIn_qualifier qualifier.named _)
  · have written := stub_mem_written planned missing
    rcases Addition.mem_methodImports.mp stub with
      ⟨mentioned, rfl⟩ | ⟨traced, rfl | rfl⟩ | ⟨traced, fails, rfl⟩ | ⟨fails, rfl⟩ |
        ⟨_, _, mentioned⟩
    · exact refersTo_appended_of_types planned missing whole mentioned
    · obtain ⟨parameter, listed, isContext⟩ := List.any_eq_true.mp traced
      have type : parameter.type = Parameter.contextType := by
        simpa [Parameter.isContext] using isContext
      have stands := (Stub.standsIn_render addition.implementation.contract method
        (List.mem_append_left _ listed)).mono (block_within_appended written)
      exact Qualification.refersTo_iff.mpr ⟨by constructor <;> decide,
        Qualification.refersFrom_of_standsIn stands (by rw [type]; decide)⟩
    · exact library (by constructor <;> decide) written (Stub.standsIn_tracing _ traced)
    · exact library (by constructor <;> decide) written (Stub.standsIn_codes _ traced fails)
    · exact library (by constructor <;> decide) written (Stub.standsIn_errors _ fails)
    · exact refersTo_appended_of_types planned missing whole mentioned

/-! ## Imports and code -/

/-- The imports that a completed file gains are those that its appended code
needs.  Code that refers to a package comes with the path of that package. -/
structure AddsAsNeeded (resolver : Resolver) (layout : FileLayout)
    (implementations : List Implementation) : Prop where
  distinct : ((added resolver layout implementations).map Import.path).Nodup
  new : ∀ spec ∈ added resolver layout implementations,
    spec.path ∉ layout.imports.map Import.path
  mentioned : ∀ spec ∈ added resolver layout implementations, ' ' ∉ spec.referenceName →
    Qualification.refersTo (appended (additions resolver layout implementations))
      spec.referenceName = true
  block : ∀ addition ∈ additions resolver layout implementations,
    addition.implementation.isNew = true →
      Imports resolver layout implementations "go.uber.org/fx" ∧
        Imports resolver layout implementations
          (resolver.importPath addition.implementation.contract.packagePath)
  qualified : ∀ addition ∈ additions resolver layout implementations,
    ∀ method ∈ addition.implementation.contract.methods,
      method.name ∉ addition.implementation.existing →
      ∀ parameter ∈ method.parameters ++ method.results,
        Qualification.qualifyType addition.contractImport.referenceName parameter.type ≠
            parameter.type →
          Imports resolver layout implementations
            (resolver.importPath addition.implementation.contract.packagePath)
  span : ∀ addition ∈ additions resolver layout implementations,
    ∀ method ∈ addition.missing, Stub.OpensSpan addition.implementation.contract method →
      Imports resolver layout implementations "context" ∧
        Imports resolver layout implementations "go.opentelemetry.io/otel"
  status : ∀ addition ∈ additions resolver layout implementations,
    ∀ method ∈ addition.missing, Stub.SetsStatus addition.implementation.contract method →
      Imports resolver layout implementations "go.opentelemetry.io/otel/codes"
  error : ∀ addition ∈ additions resolver layout implementations,
    ∀ method ∈ addition.missing, Stub.WrapsError addition.implementation.contract method →
      Imports resolver layout implementations "github.com/rotisserie/eris"

theorem addsAsNeeded
    (named : ∀ implementation ∈ implementations,
      IsPackageName implementation.contract.packageName) :
    AddsAsNeeded resolver layout implementations := by
  have asked {addition : Addition} {spec : Import} {method : Method}
      (planned : addition ∈ additions resolver layout implementations)
      (missing : method ∈ addition.missing) (needed : spec ∈ addition.methodImports method) :
      Imports resolver layout implementations spec.path :=
    imports_of_mem_requiredImports planned
      (Addition.mem_requiredImports.mpr (.inr ⟨method, missing, needed⟩))
  have contractPath {addition : Addition}
      (planned : addition ∈ additions resolver layout implementations) :
      addition.contractImport.path =
        resolver.importPath addition.implementation.contract.packagePath :=
    path_contractImport_of_mem_plan _ addition planned
  constructor
  · exact nodup_map_path_newImports
  · exact fun spec new => (mem_newImports new).2
  · exact fun spec new whole => refersTo_appended_of_mem_added named new whole
  · intro addition planned isNew
    rw [← contractPath planned]
    exact ⟨imports_of_mem_requiredImports planned
        (Addition.mem_requiredImports.mpr (.inl ⟨isNew, .inl rfl⟩)),
      imports_of_mem_requiredImports planned
        (Addition.mem_requiredImports.mpr (.inl ⟨isNew, .inr rfl⟩))⟩
  · intro addition planned method listed unwritten parameter member changed
    rw [← contractPath planned]
    rcases isUsable_of_mem_additions named planned with present | usable
    · exact List.mem_map_of_mem (List.mem_append_left _ present)
    · have missing : method.qualified addition.contractImport.referenceName ∈ addition.missing := by
        rw [missing_of_mem_plan planned]
        exact List.mem_map_of_mem (List.mem_filter.mpr ⟨listed, by simpa using unwritten⟩)
      have mentioned := Method.refersTo_qualified usable.isMentionable member changed
      exact asked planned missing (Addition.mem_methodImports.mpr (.inl ⟨mentioned, rfl⟩))
  · intro addition planned method missing opens
    have traced := (Stub.opensSpan_iff _ _).mp opens
    exact ⟨asked planned missing (Addition.mem_methodImports.mpr (.inr (.inl ⟨traced, .inl rfl⟩))),
      asked planned missing (Addition.mem_methodImports.mpr (.inr (.inl ⟨traced, .inr rfl⟩)))⟩
  · intro addition planned method missing sets
    obtain ⟨traced, fails⟩ := (Stub.setsStatus_iff _ _).mp sets
    exact asked planned missing
      (Addition.mem_methodImports.mpr (.inr (.inr (.inl ⟨traced, fails, rfl⟩))))
  · intro addition planned method missing wraps
    have fails := (Stub.wrapsError_iff _ _).mp wraps
    exact asked planned missing
      (Addition.mem_methodImports.mpr (.inr (.inr (.inr (.inl ⟨fails, rfl⟩)))))

/-- A merge that succeeds shows the imports of the file and the added ones,
appends the code of the additions, and has added what this code needs. -/
theorem addsAsNeeded_of_merge {source? : Option Bytes} {path : Text} {merged : Merged}
    (result : merge resolver path source? implementations = .ok merged)
    (named : ∀ implementation ∈ implementations,
      IsPackageName implementation.contract.packageName) :
    ∃ layout previous?,
      read source? implementations = .ok (layout, previous?) ∧
        HasSection layout previous? (added resolver layout implementations) merged.text ∧
        (∃ kept, merged.text = kept ++ appended (additions resolver layout implementations)) ∧
        AddsAsNeeded resolver layout implementations := by
  unfold merge at result
  split at result
  · simp at result
  · rename_i layout previous? accepted
    rw [← Except.ok.inj result]
    refine ⟨layout, previous?, accepted, hasSection_complete accepted resolver path, ?_,
      addsAsNeeded named⟩
    obtain ⟨gap, _, text⟩ := append_eq (written (additions resolver layout implementations))
      (withImports resolver.module.path previous? layout
        (added resolver layout implementations))
    rw [text_complete, text]
    split
    · rename_i nothing
      exact ⟨_, by rw [appended, nothing]; rfl⟩
    · exact ⟨withImports resolver.module.path previous? layout
        (added resolver layout implementations) ++ gap, by rw [List.append_assoc]; rfl⟩

/-- An implementation with a method of which two types meet at a blank. -/
def seamImplementation : Implementation where
  contract :=
    { name := "UserRepository", packageName := "users", packagePath := "api/users",
      fileName := "users.go",
      methods := [{ name := "Find", parameters := [⟨[], "foo"⟩, ⟨[], "bar.X"⟩] }],
      imports := [⟨"m/foo bar", []⟩] }
  packageName := "usersimpl"
  packagePath := "internal/users"
  fileName := "f.go"
  isNew := true

theorem addsAsNeeded_traced :
    (∀ implementation ∈ [tracedImplementation],
        IsPackageName implementation.contract.packageName) ∧
      ∃ merged, merge plainResolver "f.go" (some (Utf8.encode renamedSource))
          [tracedImplementation] = .ok merged ∧
        AddsAsNeeded plainResolver renamedLayout [tracedImplementation] := by
  have named : ∀ implementation ∈ [tracedImplementation],
      IsPackageName implementation.contract.packageName := by
    intro implementation member
    rw [List.mem_singleton.mp member]
    decide +kernel
  have accepted := read_renamedSource [tracedImplementation]
  obtain ⟨merged, run⟩ : ∃ merged, merge plainResolver "f.go" (some (Utf8.encode renamedSource))
      [tracedImplementation] = .ok merged := ⟨_, by rw [merge, accepted]⟩
  obtain ⟨layout, previous?, read, _, _, needed⟩ := addsAsNeeded_of_merge run named
  rw [accepted, Except.ok.injEq, Prod.mk.injEq] at read
  rw [← read.1] at needed
  exact ⟨named, merged, run, needed⟩

/-- The name `foo bar` is found between the types `foo` and `bar.X`, so its import
is added, but the stub writes a comma there. -/
theorem seam_not_mentioned :
    IsPackageName seamImplementation.contract.packageName ∧
      read none [seamImplementation] = .ok (emptyLayout [seamImplementation], none) ∧
      ∃ spec ∈ added plainResolver (emptyLayout [seamImplementation]) [seamImplementation],
        Qualification.refersTo
            (appended (additions plainResolver (emptyLayout [seamImplementation])
              [seamImplementation])) spec.referenceName = false := by
  refine ⟨by decide +kernel, rfl, ⟨"m/foo bar", []⟩, ?_, ?_⟩
  · decide +kernel
  · decide +kernel

end Merge

end Scaffold
