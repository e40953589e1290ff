import Mathlib.Data.List.Basic
import Scaffold.Proofs.Go.Layout
import Scaffold.Proofs.Merge.Imports

/-!
# The text that a merge returns

A merge puts the import section together anew if an import is added.  Behind
everything else stand the dependency blocks of all new backing types and then the
stubs of all missing methods.
-/

namespace Scaffold

namespace Merge

open Go (FileLayout SourceFile)

/-! ## The import section -/

/-- The block with the imports of a file and some added ones. -/
def importBlock (module : Text) (layout : FileLayout) (added : List Import) : Text :=
  ImportBlock.render module layout.comments (layout.lines ++ added.map fun spec => ⟨spec, []⟩)

/-- With added imports the section is written anew. -/
theorem withImports_of_ne_nil
    (module : Text) (previous? : Option Text) (layout : FileLayout) {added : List Import}
    (something : added ≠ []) :
    withImports module previous? layout added =
      layout.head ++ ['\n'] ++ importBlock module layout added ++
        (if layout.hasSection then layout.tail else '\n' :: layout.tail) := by
  cases added with
  | nil => exact absurd rfl something
  | cons spec rest =>
      have lines :
          (layout.lines ++ (spec :: rest).map fun spec => (⟨spec, []⟩ : ImportLine)).isEmpty =
            false := by
        cases layout.lines <;> rfl
      simp only [withImports, lines]
      rfl

/-! ## What is appended -/

/-- One block for each new backing type, in the order of the implementations. -/
def dependencyBlocks (additions : List Addition) : List Text :=
  (additions.filter fun addition => addition.implementation.isNew).map fun addition =>
    DependencyBlock.render addition.contractImport.referenceName addition.implementation.contract

/-- One stub for each missing method, in the order of the implementations and
of the declarations of their methods. -/
def stubs (additions : List Addition) : List Text :=
  additions.flatMap fun addition =>
    (addition.implementation.missingMethods addition.contractImport.referenceName).map
      (Stub.render addition.implementation.contract)

/-- Everything that is appended. -/
def written (additions : List Addition) : List Text :=
  dependencyBlocks additions ++ stubs additions

theorem flatMap_dependencyBlocks (additions : List Addition) :
    additions.flatMap Addition.dependencyBlocks = dependencyBlocks additions := by
  induction additions with
  | nil => rfl
  | cons addition rest induction =>
      rw [List.flatMap_cons, induction]
      cases fresh : addition.implementation.isNew <;>
        simp [Addition.dependencyBlocks, dependencyBlocks, fresh]

theorem flatMap_stubs_plan
    (resolver : Resolver) (known : List Import) (implementations : List Implementation) :
    (plan resolver known implementations).flatMap Addition.stubs =
      stubs (plan resolver known implementations) := by
  apply List.flatMap_congr
  intro addition member
  rw [Addition.stubs, missing_of_mem_plan member]

theorem append_eq (blocks : List Text) (text : Text) :
    ∃ gap, (gap = [] ∨ gap = ['\n']) ∧
      append blocks text =
        text ++ (if blocks = [] then [] else gap ++ blocks.flatMap ('\n' :: ·)) := by
  cases blocks with
  | nil => exact ⟨[], .inl rfl, by simp [append]⟩
  | cons block rest =>
      refine ⟨if Text.endsWith ['\n'] text then [] else ['\n'], ?_, ?_⟩
      · split
        · exact .inl rfl
        · exact .inr rfl
      · simp [append]

/-! ## The whole text -/

theorem text_complete
    (resolver : Resolver) (path : Text) (layout : FileLayout) (previous? : Option Text)
    (implementations : List Implementation) :
    (complete resolver path layout previous? implementations).text =
      append (written (additions resolver layout implementations))
        (withImports resolver.module.path previous? layout
          (added resolver layout implementations)) := by
  simp only [complete, flatMap_dependencyBlocks, flatMap_stubs_plan]
  rfl

theorem merge_of_ofSource
    {source : Bytes} {layout : FileLayout} (accepted : FileLayout.ofSource source = .ok layout)
    (resolver : Resolver) (path : Text) (implementations : List Implementation) :
    ∃ file, SourceFile.ofBytes source = .ok file ∧ file.cut = .ok layout ∧
      merge resolver path (some source) implementations =
        .ok (complete resolver path layout (some file.source) implementations) := by
  obtain ⟨file, read, cut⟩ := FileLayout.exists_file_of_ofSource accepted
  refine ⟨file, read, cut, ?_⟩
  simp only [merge, Merge.read, accepted, (SourceFile.text_of_ofBytes read).1]
  rfl

/-- A project at the root of its module. -/
def plainResolver : Resolver :=
  ⟨"/m", ⟨"example", "/m"⟩⟩

end Merge

end Scaffold
