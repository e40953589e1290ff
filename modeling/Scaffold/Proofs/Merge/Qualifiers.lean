import Scaffold.Proofs.Merge.Needed

/-!
# Names for the packages of contracts

The known imports grow from implementation to implementation, and what is put to them
has a new name.  So a package keeps the name that it was given first, and two packages
share one only if the file imports both.  The first import of a package decides, also
where it is a blank or a dot import.
-/

namespace Scaffold

namespace Import

theorem clashes_iff {left right : Import} :
    left.Clashes right ↔ left.path ≠ right.path ∧ left.Binds right.referenceName := by
  constructor
  · rintro ⟨different, name, first, rfl, visible⟩
    exact ⟨different, first⟩
  · rintro ⟨different, same, visible⟩
    exact ⟨different, _, ⟨same, visible⟩, rfl, visible⟩

instance (left right : Import) : Decidable (left.Clashes right) :=
  decidable_of_iff _ clashes_iff.symm

end Import

namespace Addition

/-- The import path of the contract's package. -/
def importPath (resolver : Resolver) (addition : Addition) : Text :=
  resolver.importPath addition.implementation.contract.packagePath

/-- The name before the types of the contract's package. -/
def qualifier (addition : Addition) : Text :=
  addition.contractImport.referenceName

end Addition

namespace Merge

open Go (FileLayout)

variable {resolver : Resolver} {layout : FileLayout} {present known : List Import}
  {implementations : List Implementation} {spec other : Import}

instance (imports : List Import) : Decidable (DistinctNames imports) :=
  inferInstanceAs (Decidable (∀ left ∈ imports, ∀ right ∈ imports, _))

/-- The first of some imports that has a path. -/
def firstOf? (imports : List Import) (path : Text) : Option Import :=
  imports.find? fun spec => spec.path == path

/-- The qualifiers for a file with some imports stand for one package each.  A package
that the file imports has a name that the file knows it by, every other package has
one that the file does not use. -/
structure HasQualifiers (resolver : Resolver) (present : List Import)
    (additions : List Addition) : Prop where
  same : ∀ first ∈ additions, ∀ second ∈ additions,
    first.importPath resolver = second.importPath resolver → first.qualifier = second.qualifier
  different : ∀ first ∈ additions, ∀ second ∈ additions,
    first.importPath resolver ≠ second.importPath resolver → first.qualifier ≠ second.qualifier
  kept : ∀ addition ∈ additions, addition.importPath resolver ∈ present.map Import.path →
    IsBound present addition.qualifier (addition.importPath resolver)
  fresh : ∀ addition ∈ additions, addition.importPath resolver ∉ present.map Import.path →
    addition.qualifier ∉ present.map Import.referenceName

/-! ## Known imports -/

/-- Imports to which others have been put, each with a new name. -/
inductive GrowsFrom (present : List Import) : List Import → Prop where
  | start : GrowsFrom present present
  | put {known : List Import} {spec : Import} (grown : GrowsFrom present known)
      (newName : spec.referenceName ∉ known.map Import.referenceName) :
      GrowsFrom present (known ++ [spec])

namespace GrowsFrom

theorem isPrefix (grown : GrowsFrom present known) : present <+: known := by
  induction grown with
  | start => exact List.prefix_refl _
  | put _ _ induction => exact induction.trans (List.prefix_append _ _)

theorem mem_or_newName (grown : GrowsFrom present known) (member : spec ∈ known) :
    spec ∈ present ∨ spec.referenceName ∉ present.map Import.referenceName := by
  induction grown with
  | start => exact .inl member
  | put grown newName induction =>
      rcases List.mem_append.mp member with old | new
      · exact induction old
      · have covered := (grown.isPrefix.sublist.map Import.referenceName).subset
        rw [List.mem_singleton.mp new]
        exact .inr fun used => newName (covered used)

theorem mem_of_referenceName_eq (grown : GrowsFrom present known) (first : spec ∈ known)
    (second : other ∈ known) (different : spec.path ≠ other.path)
    (same : spec.referenceName = other.referenceName) : spec ∈ present ∧ other ∈ present := by
  induction grown with
  | start => exact ⟨first, second⟩
  | put _ newName induction =>
      rcases List.mem_append.mp first with oldFirst | newFirst
      · rcases List.mem_append.mp second with oldSecond | newSecond
        · exact induction oldFirst oldSecond
        · rw [← List.mem_singleton.mp newSecond, ← same] at newName
          exact absurd (List.mem_map_of_mem oldFirst) newName
      · rcases List.mem_append.mp second with oldSecond | newSecond
        · rw [← List.mem_singleton.mp newFirst, same] at newName
          exact absurd (List.mem_map_of_mem oldSecond) newName
        · rw [List.mem_singleton.mp newFirst, List.mem_singleton.mp newSecond] at different
          exact absurd rfl different

/-- The import of one more package is put to the known ones unless it is one of
them. -/
theorem withImport_resolve (grown : GrowsFrom present known) (directory declared : Text) :
    GrowsFrom present (withImport (resolver.resolve directory declared known) known) := by
  rw [withImport]
  split
  · exact grown
  · rename_i absent
    rcases resolver.resolve_mem_or_fresh directory declared known with member | ⟨_, newName⟩
    · have there : (known.any fun other =>
          other.path == (resolver.resolve directory declared known).path) = true :=
        List.any_eq_true.mpr ⟨_, member, beq_self_eq_true _⟩
      exact absurd there absent
    · exact .put grown newName

end GrowsFrom

theorem isPrefix_withImport (spec : Import) (known : List Import) :
    known <+: withImport spec known := by
  rw [withImport]
  split
  · exact List.prefix_refl _
  · exact List.prefix_append _ _

theorem firstOf?_of_isPrefix {path : Text} (longer : present <+: known)
    (found : firstOf? present path = some spec) : firstOf? known path = some spec := by
  obtain ⟨more, rfl⟩ := longer
  rw [firstOf?] at found ⊢
  rw [List.find?_append, found, Option.some_or]

theorem path_of_firstOf? {path : Text} (found : firstOf? known path = some spec) :
    spec.path = path := by
  simpa using List.find?_some found

theorem mem_of_firstOf? {path : Text} (found : firstOf? known path = some spec) : spec ∈ known :=
  List.mem_of_find?_eq_some found

theorem firstOf?_eq_none {path : Text} :
    firstOf? known path = none ↔ path ∉ known.map Import.path := by
  simp [firstOf?]

theorem path_mem_of_firstOf? {path : Text} (found : firstOf? known path = some spec) :
    path ∈ known.map Import.path :=
  path_of_firstOf? found ▸ List.mem_map_of_mem (mem_of_firstOf? found)

/-- A package is known by the import that it is resolved to. -/
theorem firstOf?_withImport_resolve (directory declared : Text) :
    firstOf? (withImport (resolver.resolve directory declared known) known)
        (resolver.importPath directory) =
      some (resolver.resolve directory declared known) := by
  have path := resolver.path_resolve directory declared known
  cases found : firstOf? known (resolver.importPath directory) with
  | some spec =>
      have known : resolver.resolve directory declared known = spec := by
        rw [firstOf?] at found
        simp only [Resolver.resolve, found]
      rw [known]
      exact firstOf?_of_isPrefix (isPrefix_withImport _ _) found
  | none =>
      have absent : ¬ (known.any fun other =>
          other.path == (resolver.resolve directory declared known).path) = true := by
        simpa [path] using firstOf?_eq_none.mp found
      rw [firstOf?] at found
      rw [withImport, if_neg absent, firstOf?, List.find?_append, found, Option.none_or]
      simp [path]

/-- The imports of all planned packages come from one list of known imports, in which
each is the first of its path. -/
theorem exists_known_of_plan (resolver : Resolver) (implementations : List Implementation)
    (grown : GrowsFrom present known) :
    ∃ final, GrowsFrom present final ∧ known <+: final ∧
      ∀ addition ∈ plan resolver known implementations,
        firstOf? final (addition.importPath resolver) = some addition.contractImport := by
  induction implementations generalizing known with
  | nil => exact ⟨known, grown, List.prefix_refl _, fun _ member => absurd member List.not_mem_nil⟩
  | cons implementation rest induction =>
      obtain ⟨final, whole, longer, found⟩ := induction (grown.withImport_resolve
        implementation.contract.packagePath implementation.contract.packageName)
      refine ⟨final, whole, (isPrefix_withImport _ known).trans longer, fun addition member => ?_⟩
      rw [plan] at member
      rcases List.mem_cons.mp member with rfl | later
      · exact firstOf?_of_isPrefix longer (firstOf?_withImport_resolve _ _)
      · exact found addition later

theorem exists_known_of_additions (resolver : Resolver) (layout : FileLayout)
    (implementations : List Implementation) :
    ∃ final, GrowsFrom layout.imports final ∧
      ∀ addition ∈ additions resolver layout implementations,
        firstOf? final (addition.importPath resolver) = some addition.contractImport := by
  have nothing : GrowsFrom layout.imports layout.imports := .start
  obtain ⟨final, grown, _, found⟩ := exists_known_of_plan resolver implementations nothing
  exact ⟨final, grown, found⟩

/-! ## Qualifiers -/

theorem contractImport_of_firstOf? {addition : Addition}
    (planned : addition ∈ additions resolver layout implementations)
    (found : firstOf? layout.imports (addition.importPath resolver) = some spec) :
    addition.contractImport = spec := by
  obtain ⟨final, grown, known⟩ := exists_known_of_additions resolver layout implementations
  exact Option.some.inj
    ((known addition planned).symm.trans (firstOf?_of_isPrefix grown.isPrefix found))

/-- One package has one qualifier. -/
theorem qualifier_eq_of_importPath_eq {first second : Addition}
    (left : first ∈ additions resolver layout implementations)
    (right : second ∈ additions resolver layout implementations)
    (same : first.importPath resolver = second.importPath resolver) :
    first.qualifier = second.qualifier := by
  obtain ⟨final, _, known⟩ := exists_known_of_additions resolver layout implementations
  have equal : some first.contractImport = some second.contractImport := by
    rw [← known first left, ← known second right, same]
  exact congrArg Import.referenceName (Option.some.inj equal)

theorem qualifier_not_mem_of_not_imported {addition : Addition}
    (planned : addition ∈ additions resolver layout implementations)
    (absent : addition.importPath resolver ∉ layout.imports.map Import.path) :
    addition.qualifier ∉ layout.imports.map Import.referenceName := by
  obtain ⟨final, grown, known⟩ := exists_known_of_additions resolver layout implementations
  have found := known addition planned
  rcases grown.mem_or_newName (mem_of_firstOf? found) with old | new
  · exact absurd (path_of_firstOf? found ▸ List.mem_map_of_mem old) absent
  · exact new

/-- Packages that share a qualifier are imported by the file. -/
theorem contractImport_mem_of_qualifier_eq {first second : Addition}
    (left : first ∈ additions resolver layout implementations)
    (right : second ∈ additions resolver layout implementations)
    (different : first.importPath resolver ≠ second.importPath resolver)
    (same : first.qualifier = second.qualifier) :
    first.contractImport ∈ layout.imports ∧ second.contractImport ∈ layout.imports := by
  obtain ⟨final, grown, known⟩ := exists_known_of_additions resolver layout implementations
  have foundLeft := known first left
  have foundRight := known second right
  rw [← path_of_firstOf? foundLeft, ← path_of_firstOf? foundRight] at different
  exact grown.mem_of_referenceName_eq (mem_of_firstOf? foundLeft) (mem_of_firstOf? foundRight)
    different same

/-- Every package that the file imports is imported under a name first. -/
def NamesFirst (resolver : Resolver) (present : List Import)
    (implementations : List Implementation) : Prop :=
  ∀ implementation ∈ implementations,
    ∀ spec ∈ firstOf? present (resolver.importPath implementation.contract.packagePath),
      spec.Binds spec.referenceName

instance (resolver : Resolver) (present : List Import) (implementations : List Implementation) :
    Decidable (NamesFirst resolver present implementations) :=
  inferInstanceAs (Decidable (∀ implementation ∈ implementations, ∀ spec ∈ firstOf? _ _, _))

/-- The qualifier of a package that the file imports is bound by its first import. -/
theorem NamesFirst.binds_qualifier (named : NamesFirst resolver layout.imports implementations)
    {addition : Addition} (planned : addition ∈ additions resolver layout implementations)
    (imported : addition.importPath resolver ∈ layout.imports.map Import.path) :
    addition.contractImport ∈ layout.imports ∧
      addition.contractImport.Binds addition.qualifier := by
  have listed : addition.implementation ∈ implementations := by
    rw [← map_implementation_plan resolver implementations layout.imports]
    exact List.mem_map_of_mem planned
  obtain ⟨spec, found⟩ := Option.ne_none_iff_exists'.mp
    fun none => firstOf?_eq_none.mp none imported
  rw [Addition.qualifier, contractImport_of_firstOf? planned found]
  exact ⟨mem_of_firstOf? found, named _ listed spec found⟩

theorem hasQualifiers_of_namesFirst (distinct : DistinctNames layout.imports)
    (named : NamesFirst resolver layout.imports implementations) :
    HasQualifiers resolver layout.imports (additions resolver layout implementations) := by
  have path {addition : Addition}
      (planned : addition ∈ additions resolver layout implementations) :
      addition.contractImport.path = addition.importPath resolver :=
    path_contractImport_of_mem_plan _ addition planned
  have bound {addition : Addition}
      (planned : addition ∈ additions resolver layout implementations)
      (old : addition.contractImport ∈ layout.imports) :
      addition.contractImport.Binds addition.qualifier :=
    (named.binds_qualifier planned (path planned ▸ List.mem_map_of_mem old)).2
  constructor
  · exact fun _ left _ right => qualifier_eq_of_importPath_eq left right
  · intro first left second right different same
    obtain ⟨oldLeft, oldRight⟩ := contractImport_mem_of_qualifier_eq left right different same
    rw [← path left, ← path right] at different
    exact distinct _ oldLeft _ oldRight
      ⟨different, _, bound left oldLeft, same ▸ bound right oldRight⟩
  · intro addition planned imported
    obtain ⟨old, binds⟩ := named.binds_qualifier planned imported
    exact ⟨_, old, path planned, binds⟩
  · exact fun _ => qualifier_not_mem_of_not_imported

theorem HasQualifiers.namesFirst
    (proper : HasQualifiers resolver layout.imports (additions resolver layout implementations)) :
    NamesFirst resolver layout.imports implementations := by
  intro implementation listed spec found
  rw [← map_implementation_plan resolver implementations layout.imports] at listed
  obtain ⟨addition, planned, rfl⟩ := List.mem_map.mp listed
  obtain ⟨_, _, _, _, visible⟩ := proper.kept addition planned (path_mem_of_firstOf? found)
  rw [← contractImport_of_firstOf? planned found]
  exact ⟨rfl, visible⟩

theorem exists_kept_of_complete (resolver : Resolver) (path : Text) (layout : FileLayout)
    (previous? : Option Text) (implementations : List Implementation) :
    ∃ kept, (complete resolver path layout previous? implementations).text =
      kept ++ appended (additions resolver layout implementations) := by
  rw [text_complete]
  generalize withImports _ _ _ _ = text
  obtain ⟨gap, _, shown⟩ := append_eq (written (additions resolver layout implementations)) text
  rw [shown, appended]
  split
  · rename_i nothing
    exact ⟨text, by rw [nothing]; rfl⟩
  · exact ⟨text ++ gap, (List.append_assoc _ _ _).symm⟩

/-- Where the imports of a file have distinct names, the qualifiers of the appended
code stand for one package each exactly if every contract's package that the file
imports is imported under a name first.  A blank import or a dot import that comes
first gives its own mark to the code. -/
theorem hasQualifiers_merge_iff
    {source? : Option Bytes} {previous? : Option Text}
    (accepted : read source? implementations = .ok (layout, previous?))
    (distinct : DistinctNames layout.imports) (resolver : Resolver) (path : Text) :
    ∃ merged, merge resolver path source? implementations = .ok merged ∧
      (additions resolver layout implementations).map Addition.implementation = implementations ∧
      (∃ kept, merged.text = kept ++ appended (additions resolver layout implementations)) ∧
      (HasQualifiers resolver layout.imports (additions resolver layout implementations) ↔
        NamesFirst resolver layout.imports implementations) := by
  refine ⟨complete resolver path layout previous? implementations, ?_,
    map_implementation_plan resolver implementations layout.imports,
    exists_kept_of_complete resolver path layout previous? implementations,
    HasQualifiers.namesFirst, hasQualifiers_of_namesFirst distinct⟩
  rw [merge, accepted]

/-- A file that imports one package under another name, and another package under
the name of a third one. -/
def aliasedSource : Text :=
  "package impl\n\nimport (\n\tord \"example/api/orders\"\n\t\"example/other/users\"\n)\n"

def aliasedLayout : FileLayout where
  head := "package impl\n"
  tail := "\n"
  lines := [⟨⟨"example/api/orders", "ord"⟩, []⟩, ⟨⟨"example/other/users", []⟩, []⟩]
  hasSection := true

theorem read_aliasedSource (implementations : List Implementation) :
    read (some (Utf8.encode aliasedSource)) implementations =
      .ok (aliasedLayout, some aliasedSource) := by
  have accepted : FileLayout.ofSource (Utf8.encode aliasedSource) = .ok aliasedLayout := by
    decide +kernel
  simp only [read, accepted, Utf8.decode_encode]
  rfl

/-- An implementation that lacks a method with a type of the contract's package. -/
def userImplementation : Implementation where
  contract :=
    { name := "UserRepository", packageName := "users", packagePath := "api/users",
      fileName := "users.go",
      methods := [{ name := "Find", parameters := [⟨"user", "User"⟩] }] }
  packageName := "impl"
  packagePath := "internal/impl"
  fileName := "f.go"

def orderImplementation : Implementation where
  contract :=
    { name := "OrderRepository", packageName := "orders", packagePath := "api/orders",
      fileName := "orders.go",
      methods := [{ name := "Find", parameters := [⟨"order", "Order"⟩] }] }
  packageName := "impl"
  packagePath := "internal/impl"
  fileName := "f.go"

theorem hasQualifiers_merge_iff_aliased :
    read (some (Utf8.encode aliasedSource))
          [userImplementation, orderImplementation, userImplementation] =
        .ok (aliasedLayout, some aliasedSource) ∧
      DistinctNames aliasedLayout.imports ∧
      (∃ merged, merge plainResolver "f.go" (some (Utf8.encode aliasedSource))
          [userImplementation, orderImplementation, userImplementation] = .ok merged) ∧
      HasQualifiers plainResolver aliasedLayout.imports (additions plainResolver aliasedLayout
        [userImplementation, orderImplementation, userImplementation]) ∧
      (additions plainResolver aliasedLayout
          [userImplementation, orderImplementation, userImplementation]).map Addition.qualifier =
        ["users2", "ord", "users2"] := by
  have accepted := read_aliasedSource [userImplementation, orderImplementation, userImplementation]
  have distinct : DistinctNames aliasedLayout.imports := by decide +kernel
  obtain ⟨merged, run, _, _, proper⟩ :=
    hasQualifiers_merge_iff accepted distinct plainResolver "f.go"
  exact ⟨accepted, distinct, ⟨merged, run⟩, proper.mpr (by decide +kernel), by decide +kernel⟩

/-- A file that imports a package for its effects and then to use its types. -/
def effectSource : Text :=
  "package impl\n\nimport (\n\t_ \"example/api/users\"\n\t\"example/api/users\"\n)\n"

def effectLayout : FileLayout where
  head := "package impl\n"
  tail := "\n"
  lines := [⟨⟨"example/api/users", "_"⟩, []⟩, ⟨⟨"example/api/users", []⟩, []⟩]
  hasSection := true

theorem read_effectSource (implementations : List Implementation) :
    read (some (Utf8.encode effectSource)) implementations =
      .ok (effectLayout, some effectSource) := by
  have accepted : FileLayout.ofSource (Utf8.encode effectSource) = .ok effectLayout := by
    decide +kernel
  simp only [read, accepted, Utf8.decode_encode]
  rfl

/-- The file knows the package as `users`, and the stub takes a `_.User`. -/
theorem known_name_not_kept :
    read (some (Utf8.encode effectSource)) [userImplementation] =
        .ok (effectLayout, some effectSource) ∧
      DistinctNames effectLayout.imports ∧
      (∃ merged, merge plainResolver "f.go" (some (Utf8.encode effectSource))
          [userImplementation] = .ok merged) ∧
      IsBound effectLayout.imports "users" "example/api/users" ∧
      (additions plainResolver effectLayout [userImplementation]).map
          (fun addition => (addition.importPath plainResolver, addition.qualifier)) =
        [⟨"example/api/users", "_"⟩] ∧
      ¬ HasQualifiers plainResolver effectLayout.imports
        (additions plainResolver effectLayout [userImplementation]) := by
  have accepted := read_effectSource [userImplementation]
  refine ⟨accepted, by decide +kernel, ⟨_, by rw [merge, accepted]⟩, by decide +kernel,
    by decide +kernel, fun proper => ?_⟩
  exact absurd proper.namesFirst (by decide +kernel)

end Merge

end Scaffold
