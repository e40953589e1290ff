import Scaffold.Proofs.Go.Comments
import Scaffold.Proofs.Go.Insertion
import Scaffold.Proofs.Merge.Binding

/-!
# Files with a rebuilt import section

Whether a merged text can be read does not depend on the imports in its section.
The text is the same file with the added imports if it could be read with an
empty section and would import nothing then.
-/

namespace Scaffold

namespace Merge

open Go (FileLayout IsClean IsDeclarationText LineCut SourceFile emptySection
  exists_isDeclarationText_render isDeclarationText_emptySection isSkipped_nil scan?)

/-- The same file with some imports added: the package has its name, and each of
the imports is made once. -/
structure IsRebuiltAs (file : SourceFile) (added : List Import) (rebuilt : SourceFile) :
    Prop where
  packageName : rebuilt.packageName? = file.packageName?
  nodup : rebuilt.imports.Nodup
  mem : ∀ spec, spec ∈ rebuilt.imports ↔ spec ∈ file.imports ++ added

/-- A text can be read as the same file with some imports added. -/
def IsRebuilt (file : SourceFile) (added : List Import) (text : Text) : Prop :=
  ∃ rebuilt, SourceFile.ofText? text = some rebuilt ∧ IsRebuiltAs file added rebuilt

/-- A text with an import section behind the head of a layout and with blocks at its
end. -/
def framed (layout : FileLayout) (blocks : List Text) (text : Text) : Text :=
  append blocks
    (layout.head ++ ['\n'] ++ text ++
      (if layout.hasSection then layout.tail else '\n' :: layout.tail))

theorem text_complete_of_ne_nil
    (resolver : Resolver) (path : Text) (layout : FileLayout) (previous? : Option Text)
    {implementations : List Implementation}
    (something : added resolver layout implementations ≠ []) :
    (complete resolver path layout previous? implementations).text =
      framed layout (written (additions resolver layout implementations))
        (importBlock resolver.module.path layout (added resolver layout implementations)) := by
  rw [text_complete, withImports_of_ne_nil _ _ _ something, framed]

theorem getLast?_importBlock (module : Text) (layout : FileLayout) (added : List Import) :
    (importBlock module layout added).getLast? = some ')' := by
  have ending (front : Text) : (front ++ ("\n)" : Text)).getLast? = some ')' := by
    rw [List.getLast?_append]
    rfl
  exact ending _

theorem exists_behind (layout : FileLayout) (blocks : List Text) :
    ∃ behind, ∀ text, text.getLast? = some ')' →
      framed layout blocks text = layout.head ++ ['\n'] ++ text ++ behind := by
  generalize rest : (if layout.hasSection then layout.tail else '\n' :: layout.tail) = tail
  cases blocks with
  | nil =>
      refine ⟨tail, fun text _ => ?_⟩
      rw [framed, rest]
      rfl
  | cons block others =>
      refine ⟨tail ++ (if Text.endsWith ['\n'] tail then [] else ['\n']) ++
        (block :: others).flatMap ('\n' :: ·), fun text closed => ?_⟩
      have ending : Text.endsWith ['\n'] (layout.head ++ ['\n'] ++ text ++ tail) =
          Text.endsWith ['\n'] tail := by
        rw [Bool.eq_iff_iff, Text.endsWith, Text.endsWith, List.isSuffixOf_iff_suffix,
          List.isSuffixOf_iff_suffix, List.singleton_suffix_iff_getLast?_eq_some,
          List.singleton_suffix_iff_getLast?_eq_some, List.getLast?_append, List.getLast?_append,
          closed]
        cases tail.getLast? <;> simp
      rw [framed, rest, append, ending]
      simp

theorem exists_lineCut {file : SourceFile} {layout : FileLayout}
    (accepted : file.cut = .ok layout) :
    ∃ clause rest, file.packageClause? = some clause ∧
      LineCut file.source clause.stop layout.head rest := by
  cases SourceFile.cutAs_of_cut accepted with
  | withoutSection clause opened _ cut => exact ⟨clause, _, opened, cut⟩
  | withSection clause _ rest opened _ cut => exact ⟨clause, rest, opened, cut⟩

/-- The block with the imports of a file and some added ones is one declaration of
them, each once. -/
theorem exists_isDeclarationText_importBlock {file : SourceFile} {layout : FileLayout}
    (read : SourceFile.ofText? file.source = some file) (accepted : file.cut = .ok layout)
    (module : Text) {added : List Import} (something : added ≠ [])
    (spellable : ∀ spec ∈ file.imports ++ added, spec.IsSpellable) :
    ∃ imports body, IsDeclarationText (importBlock module layout added) imports body ∧
      imports.Nodup ∧ ∀ spec, spec ∈ imports ↔ spec ∈ file.imports ++ added := by
  have specs : (layout.lines ++ added.map fun spec => (⟨spec, []⟩ : ImportLine)).map
      ImportLine.spec = file.imports ++ added := by
    rw [List.map_append, List.map_map, ← SourceFile.imports_of_cut accepted]
    exact congrArg (layout.imports ++ ·) (List.map_id added)
  obtain ⟨attached, alone⟩ := SourceFile.isSkipped_of_cut read accepted
  have clean : ∀ line ∈ layout.lines ++ added.map fun spec => (⟨spec, []⟩ : ImportLine),
      IsClean line := by
    intro line member
    refine ⟨spellable _ (specs ▸ List.mem_map_of_mem member), ?_⟩
    rcases List.mem_append.mp member with old | new
    · exact attached line old
    · obtain ⟨spec, _, rfl⟩ := List.mem_map.mp new
      exact isSkipped_nil
  have rebuilt := exists_isDeclarationText_render module (by simp [something]) alone clean
  rwa [specs] at rebuilt

/-- Some values with others around them are each of the wanted ones once if they
are so by themselves and the others are none. -/
theorem eq_nil_of_around_iff {left right imports wanted : List Import} (nodup : imports.Nodup)
    (mem : ∀ spec, spec ∈ imports ↔ spec ∈ wanted) :
    ((left ++ imports ++ right).Nodup ∧ ∀ spec, spec ∈ left ++ imports ++ right ↔ spec ∈ wanted) ↔
      left ++ right = [] := by
  constructor
  · rintro ⟨once, all⟩
    rw [List.append_assoc, List.nodup_append] at once
    obtain ⟨_, behind, front⟩ := once
    rw [List.nodup_append] at behind
    rw [List.append_eq_nil_iff, List.eq_nil_iff_forall_not_mem, List.eq_nil_iff_forall_not_mem]
    constructor
    · intro spec member
      have inside := (mem spec).mpr ((all spec).mp (by simp [member]))
      exact front spec member spec (List.mem_append_left right inside) rfl
    · intro spec member
      have inside := (mem spec).mpr ((all spec).mp (by simp [member]))
      exact behind.2.2 spec inside spec member rfl
  · intro nothing
    obtain ⟨rfl, rfl⟩ := List.append_eq_nil_iff.mp nothing
    simpa using ⟨nodup, mem⟩

/-- With its section a merged text is read as it would be without, except that the
imports of the file and the added ones come in between. -/
theorem exists_around_section {file : SourceFile} {layout : FileLayout}
    (read : SourceFile.ofText? file.source = some file) (accepted : file.cut = .ok layout)
    (resolver : Resolver) (path : Text) {implementations : List Implementation}
    (something : added resolver layout implementations ≠ [])
    (inLine : (scan? false file.clauseRest).isSome)
    (spellable : ∀ spec ∈ file.imports ++ added resolver layout implementations,
      spec.IsSpellable) :
    ∃ (around : Option (List Import × List Import)) (imports : List Import),
      imports.Nodup ∧
        (∀ spec, spec ∈ imports ↔
          spec ∈ file.imports ++ added resolver layout implementations) ∧
        ∀ property : Option Text → List Import → Prop,
          ((∃ grown,
              SourceFile.ofText? (complete resolver path layout (some file.source)
                implementations).text = some grown ∧
              property grown.packageName? grown.imports) ↔
            ∃ left right, around = some (left, right) ∧
              property file.packageName? (left ++ imports ++ right)) ∧
          ((∃ hollow,
              SourceFile.ofText? (framed layout (written (additions resolver layout
                implementations)) emptySection) = some hollow ∧
              property hollow.packageName? hollow.imports) ↔
            ∃ left right, around = some (left, right) ∧
              property file.packageName? (left ++ right)) := by
  obtain ⟨clause, rest, opened, line⟩ := exists_lineCut accepted
  obtain ⟨behind, frames⟩ :=
    exists_behind layout (written (additions resolver layout implementations))
  obtain ⟨around, reads⟩ := SourceFile.exists_around read opened line inLine behind
  obtain ⟨imports, body, isText, nodup, mem⟩ :=
    exists_isDeclarationText_importBlock read accepted resolver.module.path something spellable
  refine ⟨around, imports, nodup, mem, fun property => ⟨?_, ?_⟩⟩
  · rw [text_complete_of_ne_nil resolver path layout _ something,
      frames _ (getLast?_importBlock _ _ _)]
    exact reads _ _ _ isText property
  · rw [frames emptySection rfl]
    simpa only [List.append_nil] using reads _ _ _ isDeclarationText_emptySection property

/-- Where nothing goes on behind the line of the package clause and all imports can be
written between double quotes, a merged text with added imports is the file with
these imports exactly if it could be read with an empty section and would import
nothing then. -/
theorem isRebuilt_iff_of_merge {source : Bytes} {file : SourceFile} {layout : FileLayout}
    (read : SourceFile.ofBytes source = .ok file) (accepted : file.cut = .ok layout)
    (resolver : Resolver) (path : Text) {implementations : List Implementation}
    (something : added resolver layout implementations ≠ [])
    (inLine : (scan? false file.clauseRest).isSome)
    (spellable : ∀ spec ∈ file.imports ++ added resolver layout implementations,
      spec.IsSpellable) :
    ∃ merged, merge resolver path (some source) implementations = .ok merged ∧
      (IsRebuilt file (added resolver layout implementations) merged.text ↔
        ∃ hollow, SourceFile.ofText?
            (framed layout (written (additions resolver layout implementations))
              emptySection) = some hollow ∧
          hollow.imports = []) := by
  have cut : FileLayout.ofSource source = .ok layout := by
    rw [FileLayout.ofSource, read]
    exact accepted
  obtain ⟨_, known, _, run⟩ := merge_of_ofSource cut resolver path implementations
  obtain rfl := Except.ok.inj (read.symm.trans known)
  refine ⟨_, run, ?_⟩
  obtain ⟨around, imports, nodup, mem, reads⟩ := exists_around_section
    (SourceFile.text_of_ofBytes read).2 accepted resolver path something inLine spellable
  have hollow := (reads fun _ imports => imports = []).2
  have rebuilt := (reads fun name imports =>
    name = file.packageName? ∧ imports.Nodup ∧
      ∀ spec, spec ∈ imports ↔
        spec ∈ file.imports ++ added resolver layout implementations).1
  have fields (grown : SourceFile) :
      IsRebuiltAs file (added resolver layout implementations) grown ↔
        grown.packageName? = file.packageName? ∧ grown.imports.Nodup ∧
          ∀ spec, spec ∈ grown.imports ↔
            spec ∈ file.imports ++ added resolver layout implementations :=
    ⟨fun same => ⟨same.packageName, same.nodup, same.mem⟩, fun ⟨name, once, all⟩ => ⟨name, once, all⟩⟩
  simp only [IsRebuilt, fields]
  rw [rebuilt, hollow]
  simp only [true_and, eq_nil_of_around_iff nodup mem]

/-- A file with two import declarations, a path between back quotes and comments. -/
def commentedSource : Text :=
  ("package p // one\n\nimport `fmt` // two\nimport (\n\tctx \"context\" /* three */\n)\n" : Text) ++
    "\ntype userRepositoryImpl ctx.Context\n"

def commentedLayout : FileLayout where
  head := "package p // one\n"
  tail := "\n\ntype userRepositoryImpl ctx.Context\n"
  lines := [⟨⟨"fmt", []⟩, "// two"⟩, ⟨⟨"context", "ctx"⟩, "/* three */"⟩]
  hasSection := true

/-- An implementation that lacks a method with an error. -/
def lineImplementation : Implementation where
  contract :=
    { name := "UserRepository", packageName := "users", packagePath := "api/users",
      fileName := "users.go",
      methods := [{ name := "Find", results := [⟨[], "error"⟩] }] }
  packageName := "p"
  packagePath := "internal/users"
  fileName := "f.go"

/-- The section of a file with comments is rebuilt. -/
theorem isRebuilt_iff_of_merge_commented :
    ∃ file, SourceFile.ofBytes (Utf8.encode commentedSource) = .ok file ∧
      file.cut = .ok commentedLayout ∧
      added plainResolver commentedLayout [lineImplementation] ≠ [] ∧
      (scan? false file.clauseRest).isSome ∧
      (∀ spec ∈ file.imports ++ added plainResolver commentedLayout [lineImplementation],
        spec.IsSpellable) ∧
      ∃ merged, merge plainResolver "f.go" (some (Utf8.encode commentedSource))
          [lineImplementation] = .ok merged ∧
        IsRebuilt file (added plainResolver commentedLayout [lineImplementation])
          merged.text := by
  have accepted : FileLayout.ofSource (Utf8.encode commentedSource) = .ok commentedLayout := by
    decide +kernel
  obtain ⟨file, read, cut⟩ := FileLayout.exists_file_of_ofSource accepted
  obtain ⟨decoded, again⟩ := SourceFile.text_of_ofBytes read
  rw [Utf8.decode_encode] at decoded
  rw [← Except.ok.inj decoded] at again
  have something : added plainResolver commentedLayout [lineImplementation] ≠ [] := by
    decide +kernel
  have known : ((SourceFile.ofText? commentedSource).map fun file =>
      decide ((scan? false file.clauseRest).isSome ∧
        ∀ spec ∈ file.imports ++ added plainResolver commentedLayout [lineImplementation],
          spec.IsSpellable)) = some true := by
    decide +kernel
  rw [again, Option.map_some, Option.some.injEq, decide_eq_true_eq] at known
  obtain ⟨merged, run, same⟩ := isRebuilt_iff_of_merge read cut plainResolver "f.go" something
    known.1 known.2
  refine ⟨file, read, cut, something, known.1, known.2, merged, run, same.mpr ?_⟩
  have empty : ((SourceFile.ofText? (framed commentedLayout
      (written (additions plainResolver commentedLayout [lineImplementation]))
        emptySection)).map fun hollow => decide (hollow.imports = [])) = some true := by
    decide +kernel
  obtain ⟨hollow, found, nothing⟩ := Option.map_eq_some_iff.mp empty
  exact ⟨hollow, found, of_decide_eq_true nothing⟩

/-- A file that imports on the line of its package clause. -/
def lineSource : Text :=
  "package p; import \"a\"\n\ntype userRepositoryImpl int\n"

def lineLayout : FileLayout where
  head := "package p; import \"a\"\n"
  tail := "\n\ntype userRepositoryImpl int\n"
  lines := [⟨⟨"a", []⟩, []⟩]
  hasSection := true

/-- The import on the package line is made twice. -/
theorem import_repeated_line :
    FileLayout.ofSource (Utf8.encode lineSource) = .ok lineLayout ∧
      added plainResolver lineLayout [lineImplementation] ≠ [] ∧
      ∃ file merged, SourceFile.ofBytes (Utf8.encode lineSource) = .ok file ∧
        merge plainResolver "f.go" (some (Utf8.encode lineSource)) [lineImplementation] =
          .ok merged ∧
        ¬ IsRebuilt file (added plainResolver lineLayout [lineImplementation])
          merged.text := by
  have accepted : FileLayout.ofSource (Utf8.encode lineSource) = .ok lineLayout := by
    decide +kernel
  refine ⟨accepted, by decide +kernel, ?_⟩
  obtain ⟨file, read, _, run⟩ :=
    merge_of_ofSource accepted plainResolver "f.go" [lineImplementation]
  refine ⟨file, _, read, run, ?_⟩
  rintro ⟨rebuilt, known, same⟩
  have text : file.source = lineSource := by
    have decoded := (SourceFile.text_of_ofBytes read).1
    rw [Utf8.decode_encode] at decoded
    exact (Except.ok.inj decoded).symm
  have repeated :
      ((SourceFile.ofText? (complete plainResolver "f.go" lineLayout (some lineSource)
          [lineImplementation]).text).map fun rebuilt => decide rebuilt.imports.Nodup) =
        some false := by
    decide +kernel
  rw [← text, known, Option.map_some, Option.some.injEq, decide_eq_false_iff_not] at repeated
  exact repeated same.nodup

end Merge

end Scaffold
