import Scaffold.Proofs.Module.Resolver

/-!
# Names of local packages

A file that imports a local package for the first time refers to it by its local
name, or by the first numbered one that no other import has.  However the number
is looked for, the search ends, and it ends at the same name.
-/

namespace Scaffold

namespace Resolver

open FreshName (IsFirstFree Numbers Tries choose numbered)

/-- The name of a package at a path where nothing else has it: the declared one if
that differs from the last component, and otherwise the last component without low
lines, unless nothing else is in it. -/
def localName (path declared : Text) : Text :=
  let base := Path.baseName path
  if declared ≠ [] ∧ declared ≠ base then declared
  else if without '_' base = [] then base
  else without '_' base

/-- A name that is left out because the last component serves as it is, or because
it is empty, makes no difference. -/
theorem referenceName_preferred (path declared : Text) :
    Import.referenceName ⟨path, preferredName path declared⟩ = localName path declared := by
  have reference (name : Text) : Import.referenceName ⟨path, name⟩ =
      if name = [] then Path.baseName path else name := by
    simp [Import.referenceName, Import.defaultName]
  rw [reference, localName]
  by_cases other : declared ≠ [] ∧ declared ≠ Path.baseName path
  · obtain ⟨named, different⟩ := other
    simp [preferredName, named, different]
  · have own : declared = [] ∨ declared = Path.baseName path := by
      rcases not_and_or.mp other with nameless | same
      · exact .inl (not_not.mp nameless)
      · exact .inr (not_not.mp same)
    have preferred : preferredName path declared =
        if without '_' (Path.baseName path) = Path.baseName path then []
        else without '_' (Path.baseName path) := by
      simp [preferredName, own]
    rw [if_neg other, preferred]
    by_cases clean : without '_' (Path.baseName path) = Path.baseName path
    · simp [clean]
    · rw [if_neg clean]

theorem resolve_of_unknown {resolver : Resolver} {directory : Text} {present : List Import}
    (unknown : ∀ spec ∈ present, spec.path ≠ resolver.importPath directory) (declared : Text) :
    resolver.resolve directory declared present =
      freshImport (resolver.importPath directory) declared present := by
  have absent : present.find? (fun spec => spec.path == resolver.importPath directory) = none := by
    apply List.find?_eq_none.mpr
    intro spec member same
    exact unknown spec member (beq_iff_eq.mp same)
  rw [resolve, absent]

/-- Both ways of looking for a fresh name end: trying name after name gives the
base if it is free and else the base with the smallest number from two that makes it
free, and numbering the local name of a new package gives the same, which is what the
package is imported as. -/
theorem resolve_agrees_with_choose :
    (∀ base taken,
      (∀ result, Tries base taken base 2 result ↔ result = choose base taken) ∧
        (base ∉ taken → choose base taken = base) ∧
        (base ∈ taken →
          ∃ first, IsFirstFree base taken 2 first ∧ choose base taken = numbered base first)) ∧
      ∀ (resolver : Resolver) (directory declared : Text) (present : List Import),
        (∀ spec ∈ present, spec.path ≠ resolver.importPath directory) →
          (∀ result, Numbers (localName (resolver.importPath directory) declared)
              (present.map Import.referenceName) result ↔
                result = (resolver.resolve directory declared present).referenceName) ∧
            (resolver.resolve directory declared present).referenceName =
              choose (localName (resolver.importPath directory) declared)
                (present.map Import.referenceName) := by
  constructor
  · intro base taken
    exact ⟨fun result => FreshName.tries_base_iff, FreshName.choose_of_not_mem,
      FreshName.exists_isFirstFree_of_mem⟩
  · intro resolver directory declared present unknown
    have chosen : (resolver.resolve directory declared present).referenceName =
        choose (localName (resolver.importPath directory) declared)
          (present.map Import.referenceName) := by
      rw [resolve_of_unknown unknown, referenceName_freshImport, referenceName_preferred]
    refine ⟨fun result => ?_, chosen⟩
    rw [chosen]
    exact FreshName.numbers_iff

/-- A project at the root of its module. -/
def storeResolver : Resolver := ⟨"/m", ⟨"example", "/m"⟩⟩

/-- Imports under the local name of a package and under its first number. -/
def storeImports : List Import :=
  [⟨"example/other/_store", "store"⟩, ⟨"example/store2", []⟩]

theorem resolve_agrees_with_choose_numbered :
    (∀ spec ∈ storeImports, spec.path ≠ storeResolver.importPath "api/_store") ∧
      (storeResolver.resolve "api/_store" [] storeImports).referenceName =
        choose "store" ["store", "store2"] ∧
      choose "store" ["store", "store2"] = "store3" := by
  have unknown : ∀ spec ∈ storeImports, spec.path ≠ storeResolver.importPath "api/_store" := by
    decide +kernel
  refine ⟨unknown, ?_, by decide +kernel⟩
  rw [(resolve_agrees_with_choose.2 storeResolver "api/_store" [] storeImports unknown).2]
  decide +kernel

end Resolver

end Scaffold
