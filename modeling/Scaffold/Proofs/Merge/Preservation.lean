import Scaffold.Proofs.Merge.Rebuilt
import Scaffold.Proofs.Text.Encoding

/-!
# What a merge keeps

The text that a merge returns begins with what was in the file.  Only the import
section is written anew, and only if an import is added.  What is appended shows
in the text, unless the section that is written anew is read as another one than
it was meant to be.
-/

namespace Scaffold

namespace Merge

open Go (CutFault FileLayout LineCut SourceFile scan?)

/-- What remains of a file when some imports are added to it. -/
inductive Kept (module : Text) (file : SourceFile) (layout : FileLayout) :
    List Import → Text → Prop where
  | whole : Kept module file layout [] file.source
  /-- The import section is replaced from the line of the package clause on. -/
  | replaced {added clause last head rest} (something : added ≠ [])
      (opened : file.packageClause? = some clause)
      (closed : (file.topLevel .importDeclaration).getLast? = some last)
      (cut : LineCut file.source clause.stop head rest) :
      Kept module file layout added
        (head ++ ['\n'] ++ importBlock module layout added ++ file.source.drop last.stop)
  /-- There is no import section yet. -/
  | inserted {added clause head rest} (something : added ≠ [])
      (opened : file.packageClause? = some clause)
      (noImport : (file.topLevel .importDeclaration).getLast? = none)
      (cut : LineCut file.source clause.stop head rest) :
      Kept module file layout added
        (head ++ ['\n'] ++ importBlock module layout added ++ ['\n'] ++ rest)

theorem kept_withImports
    {file : SourceFile} {layout : FileLayout} (accepted : file.cut = .ok layout)
    (module : Text) (added : List Import) :
    Kept module file layout added (withImports module (some file.source) layout added) := by
  by_cases something : added = []
  · subst something
    exact .whole
  · rw [withImports_of_ne_nil module _ layout something]
    cases SourceFile.cutAs_of_cut accepted with
    | withoutSection clause opened noImport cut noLine noSection =>
        have kept : Kept module file layout added _ := .inserted something opened noImport cut
        simpa [noSection] using kept
    | withSection clause last behind opened closed cut tail hasSection =>
        have kept : Kept module file layout added _ := .replaced something opened closed cut
        simpa [hasSection, tail] using kept

theorem added_of_written_eq_nil
    {resolver : Resolver} {layout : FileLayout} {implementations : List Implementation}
    (nothing : written (additions resolver layout implementations) = []) :
    added resolver layout implementations = [] := by
  obtain ⟨noBlock, noStub⟩ := List.append_eq_nil_iff.mp nothing
  have noRequest : required resolver layout implementations = [] := by
    rw [required, List.flatMap_eq_nil_iff]
    intro addition member
    apply requiredImports_eq_nil
    · rw [dependencyBlocks, List.map_eq_nil_iff, List.filter_eq_nil_iff] at noBlock
      simpa using noBlock addition member
    · rw [stubs, List.flatMap_eq_nil_iff] at noStub
      rw [missing_of_mem_plan member]
      exact List.map_eq_nil_iff.mp (noStub addition member)
  rw [added, noRequest, newImports_nil]

/-! ## What is unchanged -/

theorem isChanged_eq_false_iff (merged : Merged) {previous : Text}
    (known : merged.previous? = some previous) :
    merged.isChanged = false ↔ merged.text = previous := by
  rw [Merged.isChanged, known, bne_eq_false_iff_eq, Option.some.injEq]
  exact eq_comm

/-- What remains of a file is as long as the file, unless an import section is
written anew. -/
theorem length_le_of_kept
    {module : Text} {file : SourceFile} {layout : FileLayout} {added : List Import} {kept : Text}
    (remains : Kept module file layout added kept)
    (noneReplaced : added = [] ∨ file.topLevel .importDeclaration = []) :
    file.source.length ≤ kept.length := by
  cases remains with
  | whole => exact Nat.le_refl _
  | replaced something opened closed cut =>
      rcases noneReplaced with nothing | noImport
      · exact absurd nothing something
      · simp [noImport] at closed
  | inserted something opened noImport cut =>
      rw [← cut.whole]
      simp only [List.length_append]
      omega

/-! ## What shows -/

/-- An import section is read as it is written: nothing that begins on the line of
the package clause goes on behind it, and all imports can be written between double
quotes. -/
structure ShowsSection (file : SourceFile) (added : List Import) : Prop where
  inLine : (scan? false file.clauseRest).isSome
  spellable : ∀ spec ∈ file.imports ++ added, spec.IsSpellable

theorem not_mem_imports_of_mem_added {resolver : Resolver} {file : SourceFile}
    {layout : FileLayout} (accepted : file.cut = .ok layout)
    {implementations : List Implementation} {spec : Import}
    (member : spec ∈ added resolver layout implementations) : spec ∉ file.imports := by
  rw [← SourceFile.imports_of_cut accepted]
  intro present
  exact (mem_newImports member).2 (List.mem_map_of_mem present)

/-- Read back as it was written, a section with an added import tells the text from
the one before. -/
theorem isChanged_of_showsSection {resolver : Resolver} {file : SourceFile}
    {layout : FileLayout} (read : SourceFile.ofText? file.source = some file)
    (accepted : file.cut = .ok layout) {implementations : List Implementation}
    (something : added resolver layout implementations ≠ [])
    (shows : ShowsSection file (added resolver layout implementations)) (path : Text) :
    (complete resolver path layout (some file.source) implementations).isChanged = true := by
  rw [← Bool.not_eq_false, isChanged_eq_false_iff _ rfl]
  intro same
  obtain ⟨around, imports, _, mem, reads⟩ := exists_around_section read accepted resolver path
    something shows.inLine shows.spellable
  -- The file itself is what is read, so it makes all imports of the section.
  have again := (reads fun _ found => found = file.imports).1
  rw [same] at again
  obtain ⟨left, right, _, whole⟩ := again.mp ⟨file, read, rfl⟩
  obtain ⟨spec, others, first⟩ := List.exists_cons_of_ne_nil something
  have member : spec ∈ added resolver layout implementations := first ▸ List.mem_cons_self
  have made : spec ∈ imports := (mem spec).mpr (List.mem_append_right _ member)
  apply not_mem_imports_of_mem_added accepted member
  rw [← whole]
  simp [made]

/-! ## The whole text -/

/-- A file after a merge, seen from the file before. -/
structure Preserves (resolver : Resolver) (file : SourceFile) (layout : FileLayout)
    (implementations : List Implementation) (merged : Merged) : Prop where
  text : ∃ kept gap,
    Kept resolver.module.path file layout (added resolver layout implementations) kept ∧
      (gap = [] ∨ gap = ['\n']) ∧
      merged.text = kept ++
        (if written (additions resolver layout implementations) = [] then []
          else gap ++ (written (additions resolver layout implementations)).flatMap ('\n' :: ·))
  order : (additions resolver layout implementations).map Addition.implementation =
    implementations
  newTypes : merged.newTypes =
    (dependencyBlocks (additions resolver layout implementations)).length
  newMethods : merged.newMethods = (stubs (additions resolver layout implementations)).length
  changed : merged.isChanged = false ↔ merged.text = file.source
  unchanged : written (additions resolver layout implementations) = [] →
    merged.isChanged = false
  /-- Text that is appended shows, unless an import section is written anew and is
  not read as it is written. -/
  appended : written (additions resolver layout implementations) ≠ [] →
    added resolver layout implementations = [] ∨ file.topLevel .importDeclaration = [] ∨
      ShowsSection file (added resolver layout implementations) →
    merged.isChanged = true

/-- Appended text makes a text longer that is no shorter than the file before. -/
theorem isChanged_of_length_le {resolver : Resolver} {path : Text} {file : SourceFile}
    {layout : FileLayout} {implementations : List Implementation} {kept gap : Text}
    (text : (complete resolver path layout (some file.source) implementations).text = kept ++
      (if written (additions resolver layout implementations) = [] then []
        else gap ++ (written (additions resolver layout implementations)).flatMap ('\n' :: ·)))
    (something : written (additions resolver layout implementations) ≠ [])
    (longer : file.source.length ≤ kept.length) :
    (complete resolver path layout (some file.source) implementations).isChanged = true := by
  rw [← Bool.not_eq_false, isChanged_eq_false_iff _ rfl, text, if_neg something]
  intro same
  have sizes := congrArg List.length same
  obtain ⟨block, rest, blocks⟩ := List.exists_cons_of_ne_nil something
  rw [blocks] at sizes
  simp only [List.length_append, List.flatMap_cons, List.length_cons] at sizes
  omega

theorem preserves_complete
    {file : SourceFile} {layout : FileLayout} (read : SourceFile.ofText? file.source = some file)
    (accepted : file.cut = .ok layout) (resolver : Resolver) (path : Text)
    (implementations : List Implementation) :
    Preserves resolver file layout implementations
      (complete resolver path layout (some file.source) implementations) := by
  have remains := kept_withImports accepted resolver.module.path
    (added resolver layout implementations)
  obtain ⟨gap, short, text⟩ :=
    append_eq (written (additions resolver layout implementations))
      (withImports resolver.module.path (some file.source) layout
        (added resolver layout implementations))
  rw [← text_complete resolver path] at text
  have changed := isChanged_eq_false_iff
    (complete resolver path layout (some file.source) implementations) rfl
  refine ⟨⟨_, gap, remains, short, text⟩, map_implementation_plan _ _ _, ?_, ?_, changed,
    ?_, ?_⟩
  · simp only [complete, flatMap_dependencyBlocks]
    rfl
  · simp only [complete, flatMap_stubs_plan]
    rfl
  · intro nothing
    rw [changed, text, if_pos nothing, added_of_written_eq_nil nothing, List.append_nil]
    rfl
  · intro something shown
    have shorter (noneReplaced : added resolver layout implementations = [] ∨
        file.topLevel .importDeclaration = []) :=
      isChanged_of_length_le text something (length_le_of_kept remains noneReplaced)
    rcases shown with nothing | noImport | shows
    · exact shorter (.inl nothing)
    · exact shorter (.inr noImport)
    · by_cases nothing : added resolver layout implementations = []
      · exact shorter (.inl nothing)
      · exact isChanged_of_showsSection read accepted nothing shows path

/-- A file with only complete implementations is refused or stays as it is. -/
theorem merge_of_complete
    {implementations : List Implementation}
    (complete : ∀ implementation ∈ implementations, IsComplete implementation)
    (resolver : Resolver) (path text : Text) :
    (∃ fault, merge resolver path (some (Utf8.encode text)) implementations = .error fault) ∨
      merge resolver path (some (Utf8.encode text)) implementations =
        .ok { path := path, text := text, previous? := some text, newTypes := 0,
              newMethods := 0 } := by
  rw [merge, read]
  cases FileLayout.ofSource (Utf8.encode text) with
  | error fault => exact .inl ⟨fault, rfl⟩
  | ok layout =>
      simp only [Utf8.decode_encode]
      exact .inr (congrArg Except.ok (complete_of_complete complete path text layout))

/-- Every file that can be cut is merged into.  What was written in it by hand
stays, and completing it once more changes nothing. -/
theorem merge_preserves
    {source : Bytes} {layout : FileLayout} (accepted : FileLayout.ofSource source = .ok layout)
    (resolver : Resolver) (path : Text) (implementations : List Implementation) :
    ∃ file merged, SourceFile.ofBytes source = .ok file ∧
      merge resolver path (some source) implementations = .ok merged ∧
      Preserves resolver file layout implementations merged ∧
      ∀ later, (∀ implementation ∈ later, IsComplete implementation) →
        (∃ fault, merge resolver path (some (Utf8.encode merged.text)) later = .error fault) ∨
        ∃ again, merge resolver path (some (Utf8.encode merged.text)) later = .ok again ∧
          again.text = merged.text ∧ again.isChanged = false ∧ again.newTypes = 0 ∧
          again.newMethods = 0 := by
  obtain ⟨file, read, cut, run⟩ := merge_of_ofSource accepted resolver path implementations
  have again := (SourceFile.text_of_ofBytes read).2
  refine ⟨file, _, read, run, preserves_complete again cut resolver path implementations, ?_⟩
  intro later whole
  rcases merge_of_complete whole resolver path
      (complete resolver path layout (some file.source) implementations).text with
    refused | again
  · exact .inl refused
  · exact .inr ⟨_, again, rfl, by simp [Merged.isChanged], rfl, rfl⟩

/-- A file with an import section. -/
def plainSource : Text :=
  "package p\n\nimport \"fmt\"\n\nfunc main() \x7b\x7d\n"

/-- The layout of the file. -/
def plainLayout : FileLayout where
  head := "package p\n"
  tail := "\n\nfunc main() \x7b\x7d\n"
  lines := [⟨⟨"fmt", []⟩, []⟩]
  hasSection := true

/-- A new implementation with one method. -/
def plainImplementation : Implementation where
  contract :=
    { name := "UserRepository", packageName := "users", packagePath := "api/users",
      methods := [{ name := "Find", parameters := [⟨"id", "int"⟩],
                    results := [⟨[], "error"⟩] }] }
  packageName := "p"
  isNew := true

/-- An import is added to the file, and its section is read as it is written. -/
theorem merge_preserves_plain :
    ∃ file merged, SourceFile.ofBytes (Utf8.encode plainSource) = .ok file ∧
      merge plainResolver "f.go" (some (Utf8.encode plainSource)) [plainImplementation] =
        .ok merged ∧
      Preserves plainResolver file plainLayout [plainImplementation] merged ∧
      added plainResolver plainLayout [plainImplementation] ≠ [] ∧
      ShowsSection file (added plainResolver plainLayout [plainImplementation]) ∧
      merged.isChanged = true := by
  have accepted : FileLayout.ofSource (Utf8.encode plainSource) = .ok plainLayout := by
    decide +kernel
  obtain ⟨file, merged, read, run, preserved, _⟩ :=
    merge_preserves accepted plainResolver "f.go" [plainImplementation]
  have known : ((SourceFile.ofText? plainSource).map fun file =>
      decide ((scan? false file.clauseRest).isSome ∧
        ∀ spec ∈ file.imports ++ added plainResolver plainLayout [plainImplementation],
          spec.IsSpellable)) = some true := by
    decide +kernel
  obtain ⟨decoded, again⟩ := SourceFile.text_of_ofBytes read
  rw [Utf8.decode_encode] at decoded
  rw [← Except.ok.inj decoded] at again
  rw [again, Option.map_some, Option.some.injEq, decide_eq_true_eq] at known
  have shows : ShowsSection file (added plainResolver plainLayout [plainImplementation]) :=
    ⟨known.1, known.2⟩
  refine ⟨file, merged, read, run, preserved, by decide +kernel, shows, ?_⟩
  exact preserved.appended (by decide +kernel) (.inr (.inr shows))

/-! ## Stubs that do not show

Such a file holds the end of another import section, the declarations behind it and
the beginning of a stub up to a raw string in the type of its parameter, all inside
one comment.  The section that is written anew ends where the other one does, and
the stub that is appended restores what followed the comment.  The comment begins
in a path that cannot be written between double quotes, or on the line of the
package clause. -/

/-- A stub is appended, and the text is the one before. -/
def HidesStub (source : Text) (implementation : Implementation) : Prop :=
  ∃ layout merged, FileLayout.ofSource (Utf8.encode source) = .ok layout ∧
    merge plainResolver "f.go" (some (Utf8.encode source)) [implementation] = .ok merged ∧
    merged.newMethods = 1 ∧ merged.isChanged = false

theorem hidesStub_of_merge {source : Text} {implementation : Implementation}
    (outcome : (match merge plainResolver "f.go" (some (Utf8.encode source)) [implementation] with
      | .ok merged => decide (merged.newMethods = 1) && !merged.isChanged
      | .error _ => false) = true) : HidesStub source implementation := by
  cases accepted : FileLayout.ofSource (Utf8.encode source) with
  | error fault => simp [merge, read, accepted] at outcome
  | ok layout =>
      obtain ⟨file, _, _, run⟩ :=
        merge_of_ofSource accepted plainResolver "f.go" [implementation]
      rw [run] at outcome
      simp only [Bool.and_eq_true, decide_eq_true_eq, Bool.not_eq_true'] at outcome
      exact ⟨layout, _, accepted, run, outcome.1, outcome.2⟩

/-- The end of the stub and what stands before it. -/
def coveredBody : Text :=
  "\nfunc f(x z.B) \x7b // `\x7d) \x7b\n\tpanic(\"TODO: implement c.CRepository.M\")\n\x7d\n"

/-- An implementation of a method whose parameter has a type with a raw string, in
which something closes a comment. -/
def coveringImplementation (closing path : Text) : Implementation where
  contract :=
    { name := "CRepository", packageName := "c", packagePath := "api/c", fileName := "c.go",
      methods := [{ name := "M", parameters :=
        [⟨"v", "struct\x7b x z.B `*/\n" ++ closing ++ "\nfunc f(x z.B) \x7b // `\x7d"⟩] }],
      imports := [⟨path, "z"⟩] }
  packageName := "p"
  packagePath := "internal/c"
  fileName := "f.go"

/-- The text of a file from the import section on. -/
def coveringText (imported closing : Text) : Text :=
  imported ++ coveredBody ++ "\nfunc (r *cRepositoryImpl) M(v struct\x7b x z.B `*/\n" ++
    closing ++ coveredBody

/-- A file whose last import is followed by a comment. -/
def coveringSource : Text :=
  "package p\n\n" ++ coveringText "import (\n\tz \"a\" // k\n\tz \"a\"/*\"\n)" ")"

/-- A file with a comment that begins on the line of its package clause. -/
def coveringLineSource : Text :=
  "package p /*\n\n" ++ coveringText "import (\n\tz \"a\"\n\t\"q\"\n)" "import \"q\""

theorem stub_appended_unchanged :
    HidesStub coveringSource (coveringImplementation ")" "a\"/*") ∧
      HidesStub coveringLineSource (coveringImplementation "import \"q\"" "a") :=
  ⟨hidesStub_of_merge (by decide +kernel), hidesStub_of_merge (by decide +kernel)⟩

end Merge

end Scaffold
