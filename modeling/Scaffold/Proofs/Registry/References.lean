import Scaffold.Proofs.Go.ImportBlock
import Scaffold.Proofs.Registry.Listing
import Scaffold.Proofs.Registry.Order

/-!
# References in a registry

A registry imports fx and the packages of its implementations outside its own
directory.  Packages are named one after the other, and each new one gets a name
that no import has so far.  Whatever the packages are called and however their
paths are spelled, every path is imported once, no two imports share a name, and
every entry is qualified by the import of its package.
-/

namespace Scaffold

namespace Resolver

theorem referenceName_freshImport_ne_nil (path : Text) {declared : Text} (named : declared ≠ [])
    (present : List Import) : (freshImport path declared present).referenceName ≠ [] := by
  have numbered {name : Text} (some : name ≠ []) (index : Nat) : FreshName.numbered name index ≠ [] :=
    List.append_ne_nil_of_left_ne_nil some _
  refine @referenceName_freshImport_induction (fun name => name ≠ []) path declared ?_ numbered
    present
  rcases referenceName_preferred_cases path named with same | ⟨some, same⟩
  · rw [same]
    exact named
  · rw [same]
    exact some

end Resolver

namespace Registry

variable {resolver : Resolver} {current directory : Text} {packageName? : Option Text}
  {implementations : List Implementation}

/-! ## Imports -/

variable (resolver directory implementations)

/-- An implementation outside the directory has its package at the path. -/
def IsElsewhere (path : Text) : Prop :=
  ∃ implementation ∈ implementations, Path.normalize implementation.packagePath ≠ directory ∧
    resolver.importPath implementation.packagePath = path

/-- No two imports have one path or one name, no name is empty, and nothing but
fx and packages elsewhere is imported. -/
structure AreApart (imports : List Import) : Prop where
  paths : (imports.map Import.path).Nodup
  names : (imports.map Import.referenceName).Nodup
  named : ∀ spec ∈ imports, spec.referenceName ≠ []
  options : libraries.options ∈ imports
  needed : ∀ spec ∈ imports,
    spec = libraries.options ∨ IsElsewhere resolver directory implementations spec.path

variable {resolver directory implementations}

namespace AreApart

theorem start : AreApart resolver directory implementations [libraries.options] where
  paths := List.nodup_singleton _
  names := List.nodup_singleton _
  named := List.forall_mem_singleton.mpr (by decide +kernel)
  options := List.mem_singleton_self _
  needed := List.forall_mem_singleton.mpr (.inl rfl)

/-- The import of one more package elsewhere stays apart from the others. -/
theorem imported {known : List Import} (apart : AreApart resolver directory implementations known)
    {implementation : Implementation} (member : implementation ∈ implementations)
    (elsewhere : Path.normalize implementation.packagePath ≠ directory)
    (named : implementation.packageName ≠ []) :
    AreApart resolver directory implementations (Merge.withImport
      (resolver.resolve implementation.packagePath implementation.packageName known) known) where
  paths := by
    apply Merge.nodup_map_withImport apart.paths
    intro absent old
    obtain ⟨other, listed, same⟩ := List.mem_map.mp old
    exact absent other listed same
  names := Merge.nodup_referenceName_withImport apart.names resolver _ _
  named := by
    intro spec listed
    rcases Merge.eq_or_mem_of_mem_withImport listed with rfl | old
    · rw [Resolver.resolve]
      split
      · rename_i spec found
        exact apart.named spec (List.mem_of_find?_eq_some found)
      · exact Resolver.referenceName_freshImport_ne_nil _ named known
    · exact apart.named spec old
  options := Merge.mem_withImport_of_mem apart.options
  needed := by
    intro spec listed
    rcases Merge.eq_or_mem_of_mem_withImport listed with rfl | old
    · exact .inr ⟨implementation, member, elsewhere, (resolver.path_resolve _ _ known).symm⟩
    · exact apart.needed spec old

end AreApart

/-- The imports that are known in the end are apart, and every implementation
has its entry. -/
theorem references_areApart (resolver : Resolver) (directory : Text) {sorted : List Implementation}
    (listed : ∀ implementation ∈ sorted, implementation ∈ implementations)
    (named : ∀ implementation ∈ implementations, implementation.packageName ≠ []) :
    let last := references resolver directory [libraries.options] [] sorted
    AreApart resolver directory implementations last.1 ∧
      ∀ implementation ∈ sorted,
        Enters resolver directory last.1 implementation.packagePath implementation.optionsName
          (entry last.2 implementation) := by
  obtain ⟨⟨apart, refers⟩, reaches⟩ := references_induction
    (fun known found => AreApart resolver directory implementations known ∧
      ∀ entry ∈ found, RefersTo resolver directory known entry.1 entry.2)
    (fun here ⟨apart, refers⟩ => ⟨apart, refersTo_own refers here⟩)
    (fun implementation member elsewhere {_ _} ⟨apart, refers⟩ =>
      ⟨apart.imported (listed _ member) elsewhere (named _ (listed _ member)),
        refersTo_imported refers elsewhere implementation.packageName⟩)
    ⟨AreApart.start, fun _ member => absurd member List.not_mem_nil⟩
  exact ⟨apart, fun implementation member =>
    enters_entry refers apart.named (reaches.all implementation member)⟩

/-! ## The text -/

/-- The text has one block of imports, and behind it one entry on a line of its
own for each implementation. -/
def Writes (rendered : Text) (imports : List Import) (entries : List Text) : Prop :=
  ∃ (package : Text) (directives : List Directive) (block : Text),
    ImportBlock.Lists block imports ∧
      rendered = header ++ Text.ofLines (["package " ++ package, []] ++ directiveLines directives ++
        [block, []] ++ rows entries)

/-- The references of a registry in a directory are right: its imports are those
of fx and of the packages elsewhere, and each implementation has its entry. -/
structure HasReferences (resolver : Resolver) (directory : Text)
    (implementations : List Implementation) (rendered : Text) (imports : List Import)
    (entries : List Text) : Prop where
  written : Writes rendered imports entries
  apart : AreApart resolver directory implementations imports
  all : ∀ path, IsElsewhere resolver directory implementations path → path ∈ imports.map Import.path
  entries : List.Forall₂
    (fun implementation =>
      Enters resolver directory imports implementation.packagePath implementation.optionsName)
    (sort implementations) entries

theorem Enters.importPath_mem {imports : List Import} {path options entry : Text}
    (enters : Enters resolver directory imports path options entry)
    (elsewhere : Path.normalize path ≠ directory) :
    resolver.importPath path ∈ imports.map Import.path := by
  cases enters with
  | own here => exact absurd here elsewhere
  | imported _ listed leads => exact leads ▸ List.mem_map_of_mem listed

theorem hasReferences_of_render {rendered : Text}
    (named : ∀ implementation ∈ implementations, implementation.packageName ≠ [])
    (result : render resolver current directory packageName? implementations = .ok rendered) :
    ∃ imports entries, HasReferences resolver (Path.normalize directory) implementations rendered
      imports entries := by
  obtain ⟨⟨known, found⟩, last⟩ : ∃ last, references resolver (Path.normalize directory)
    [libraries.options] [] (sort implementations) = last := ⟨_, rfl⟩
  have listed : ∀ implementation ∈ sort implementations, implementation ∈ implementations :=
    fun implementation => (Sorting.mem_sort _).mp
  obtain ⟨apart, entered⟩ := references_areApart resolver (Path.normalize directory) listed named
  rw [last] at apart entered
  obtain ⟨package, directives, lines⟩ := exists_lines_of_render result last
  refine ⟨known, (sort implementations).map (entry found), ?_⟩
  constructor
  · exact ⟨package, directives, _,
      ImportBlock.lists_render _ (List.Nodup.of_map _ apart.paths), lines⟩
  · exact apart
  · rintro path ⟨implementation, member, elsewhere, rfl⟩
    exact (entered implementation ((Sorting.mem_sort _).mpr member)).importPath_mem elsewhere
  · rw [List.forall₂_map_right_iff]
    exact List.forall₂_same.mpr entered

/-- A registry for packages with names has the right references; there is none
only if some contract has no file. -/
theorem render_hasReferences (resolver : Resolver) (current directory : Text)
    (packageName? : Option Text)
    (named : ∀ implementation ∈ implementations, implementation.packageName ≠ []) :
    (∃ implementation ∈ implementations, implementation.contract.definitionPath = []) ∧
        render resolver current directory packageName? implementations = .error .noPath ∨
      ∃ rendered, render resolver current directory packageName? implementations = .ok rendered ∧
        ∃ imports entries, HasReferences resolver (Path.normalize directory) implementations rendered
          imports entries := by
  cases result : render resolver current directory packageName? implementations with
  | error fault =>
      cases fault
      refine .inl ⟨?_, rfl⟩
      by_contra none
      have filed : ∀ implementation ∈ implementations,
          implementation.contract.definitionPath ≠ [] :=
        fun implementation member empty => none ⟨implementation, member, empty⟩
      obtain ⟨rendered, written⟩ := exists_render_iff.mpr filed
      rw [result] at written
      cases written
  | ok rendered => exact .inr ⟨rendered, rfl, hasReferences_of_render named result⟩

/-- An implementation of the contract `XRepository` by a package at a path. -/
def placed (packageName packagePath : Text) : Implementation where
  contract := { name := "XRepository", packagePath := "api", fileName := "x.go" }
  packageName := packageName
  packagePath := packagePath

/-- Packages that are called like fx, one of them spelled in two ways, and the
registry's own. -/
def crowd : List Implementation :=
  [placed "i" "i/.", placed "fx" "b/fx", placed "fx" "./a/fx", placed "fx" "a/fx"]

theorem render_hasReferences_crowd :
    (∀ implementation ∈ crowd, implementation.packageName ≠ []) ∧
      ∃ rendered, render ⟨"/p", ⟨"m", "/p"⟩⟩ "/p" "i" none crowd = .ok rendered ∧
        ∃ imports entries,
          HasReferences ⟨"/p", ⟨"m", "/p"⟩⟩ (Path.normalize "i") crowd rendered imports entries := by
  have named : ∀ implementation ∈ crowd, implementation.packageName ≠ [] := by decide
  refine ⟨named, ?_⟩
  rcases render_hasReferences ⟨"/p", ⟨"m", "/p"⟩⟩ "/p" "i" none named with ⟨none, _⟩ | written
  · exact absurd none (by decide)
  · exact written

example :
    (references ⟨"/p", ⟨"m", "/p"⟩⟩ "i" [libraries.options] [] (sort crowd)).1.map Import.render =
      ["\"go.uber.org/fx\"", "fx2 \"m/a/fx\"", "fx3 \"m/b/fx\""] := by
  decide +kernel

end Registry

end Scaffold
