import Scaffold.Proofs.Go.ImportBlock
import Scaffold.Proofs.Merge.Text
import Scaffold.Proofs.Text.Encoding

/-!
# Names that appended code uses

Appended code refers to packages by fixed names, by the name of the contract's
package, and by the names in the types of a method.  Such a name is bound by the
imports of the file or by the first request for its path.  It stays unbound
where the path is imported under other names only.
-/

namespace Scaffold

namespace Import

/-- The import makes its package available under a name. -/
def Binds (spec : Import) (name : Text) : Prop :=
  spec.referenceName = name ∧ name ≠ ['_'] ∧ name ≠ ['.']

instance (spec : Import) (name : Text) : Decidable (spec.Binds name) :=
  inferInstanceAs (Decidable (_ ∧ _))

end Import

namespace Addition

/-- The code of the addition refers to the package at a path by a name. -/
inductive Uses (addition : Addition) : Text → Text → Prop where
  | options (fresh : addition.implementation.isNew = true) :
      Uses addition "fx" "go.uber.org/fx"
  | contract (fresh : addition.implementation.isNew = true)
      (named : addition.contractImport.referenceName ≠ []) :
      Uses addition addition.contractImport.referenceName addition.contractImport.path
  | declared {method} (missing : method ∈ addition.missing)
      (mentioned : Qualification.refersTo method.types addition.contractImport.referenceName) :
      Uses addition addition.contractImport.referenceName addition.contractImport.path
  | context {method} (missing : method ∈ addition.missing) (traced : method.hasContext = true) :
      Uses addition "context" "context"
  | tracing {method} (missing : method ∈ addition.missing) (traced : method.hasContext = true) :
      Uses addition "otel" "go.opentelemetry.io/otel"
  | codes {method} (missing : method ∈ addition.missing) (traced : method.hasContext = true)
      (fails : method.returnsError = true) :
      Uses addition "codes" "go.opentelemetry.io/otel/codes"
  | errors {method} (missing : method ∈ addition.missing) (fails : method.returnsError = true) :
      Uses addition "eris" "github.com/rotisserie/eris"
  | imported {method spec} (missing : method ∈ addition.missing)
      (known : spec ∈ addition.implementation.contract.imports)
      (mentioned : Qualification.refersTo method.types spec.referenceName) :
      Uses addition spec.referenceName spec.path

end Addition

namespace Merge

open Go (CutFault FileLayout SourceFile)

/-! ## The import section of the merged text -/

/-- The import section of a text makes the imports of a layout and some added
ones.  Without an added one it is the section that the file had. -/
inductive HasSection (layout : FileLayout) (previous? : Option Text) :
    List Import → Text → Prop where
  | same {file : SourceFile} {behind} (known : previous? = some file.source)
      (read : SourceFile.ofText? file.source = some file)
      (imports : layout.imports = file.imports) :
      HasSection layout previous? [] (file.source ++ behind)
  | missing {behind} (unknown : previous? = none) (nothing : layout.imports = []) :
      HasSection layout previous? [] (layout.head ++ behind)
  | rebuilt {added block behind} (something : added ≠ [])
      (declared : ImportBlock.Declares block layout.comments (layout.imports ++ added)) :
      HasSection layout previous? added (layout.head ++ ['\n'] ++ block ++ behind)

theorem declares_importBlock (module : Text) (layout : FileLayout) (added : List Import) :
    ImportBlock.Declares (importBlock module layout added) layout.comments
      (layout.imports ++ added) := by
  have declared := ImportBlock.declares_render module layout.comments
    (layout.lines ++ added.map fun spec => ⟨spec, []⟩)
  rw [List.map_append, List.map_map] at declared
  have specs : added.map (ImportLine.spec ∘ fun spec => ⟨spec, []⟩) = added :=
    List.map_id added
  rwa [specs] at declared

/-- A layout with the text that it belongs to. -/
theorem previous_of_read
    {source? : Option Bytes} {implementations : List Implementation} {layout : FileLayout}
    {previous? : Option Text}
    (accepted : read source? implementations = .ok (layout, previous?)) :
    (previous? = none ∧ layout.lines = [] ∧ layout.tail = []) ∨
      ∃ file, previous? = some file.source ∧ SourceFile.ofText? file.source = some file ∧
        layout.imports = file.imports := by
  cases source? with
  | none =>
      simp only [read, Except.ok.injEq, Prod.mk.injEq] at accepted
      obtain ⟨rfl, rfl⟩ := accepted
      exact .inl ⟨rfl, rfl, rfl⟩
  | some source =>
      cases cut : FileLayout.ofSource source with
      | error fault => simp [read, cut] at accepted
      | ok found =>
          obtain ⟨file, known, whole⟩ := FileLayout.exists_file_of_ofSource cut
          obtain ⟨decoded, again⟩ := SourceFile.text_of_ofBytes known
          simp only [read, cut, decoded, Except.ok.injEq, Prod.mk.injEq] at accepted
          obtain ⟨rfl, rfl⟩ := accepted
          exact .inr ⟨file, rfl, again, SourceFile.imports_of_cut whole⟩

theorem hasSection_complete
    {source? : Option Bytes} {implementations : List Implementation} {layout : FileLayout}
    {previous? : Option Text}
    (accepted : read source? implementations = .ok (layout, previous?))
    (resolver : Resolver) (path : Text) :
    HasSection layout previous? (added resolver layout implementations)
      (complete resolver path layout previous? implementations).text := by
  obtain ⟨gap, short, text⟩ :=
    append_eq (written (additions resolver layout implementations))
      (withImports resolver.module.path previous? layout
        (added resolver layout implementations))
  rw [text_complete, text]
  generalize (if written (additions resolver layout implementations) = [] then [] else _) = behind
  cases news : added resolver layout implementations with
  | nil =>
      rcases previous_of_read accepted with
        ⟨unknown, noLine, noTail⟩ | ⟨file, known, read, imports⟩
      · have text : withImports resolver.module.path previous? layout [] = layout.head := by
          simp [withImports, unknown, noLine, noTail]
        rw [text]
        exact .missing unknown (by simp [FileLayout.imports, noLine])
      · have text : withImports resolver.module.path previous? layout [] = file.source := by
          simp [withImports, known]
        rw [text]
        exact .same known read imports
  | cons spec rest =>
      have declared := declares_importBlock resolver.module.path layout (spec :: rest)
      rw [withImports_of_ne_nil _ _ _ (List.cons_ne_nil spec rest), List.append_assoc _ _ behind]
      exact .rebuilt (List.cons_ne_nil spec rest) declared

/-! ## Bound names -/

/-- Some import makes the package at a path available under a name. -/
def IsBound (imports : List Import) (name path : Text) : Prop :=
  ∃ spec ∈ imports, spec.path = path ∧ spec.Binds name

instance (imports : List Import) (name path : Text) : Decidable (IsBound imports name path) :=
  inferInstanceAs (Decidable (∃ spec ∈ imports, _))

/-- For a path that the file does not import the first request decides. -/
theorem isBound_newImports_iff {present requests : List Import} {name path : Text} :
    IsBound (present ++ newImports (present.map Import.path) requests) name path ↔
      IsBound present name path ∨
        (∀ spec ∈ present, spec.path ≠ path) ∧
          ∃ spec, requests.find? (fun other => other.path == path) = some spec ∧
            spec.Binds name := by
  constructor
  · rintro ⟨spec, member, rfl, binds⟩
    rcases List.mem_append.mp member with old | new
    · exact .inl ⟨spec, old, rfl, binds⟩
    · obtain ⟨absent, found⟩ := mem_newImports_iff_find?.mp new
      refine .inr ⟨?_, spec, found, binds⟩
      intro other known same
      exact absent (same ▸ List.mem_map_of_mem known)
  · rintro (⟨spec, old, same, binds⟩ | ⟨absent, spec, found, binds⟩)
    · exact ⟨spec, List.mem_append_left _ old, same, binds⟩
    · have same : spec.path = path := by simpa using List.find?_some found
      subst same
      have unknown : spec.path ∉ present.map Import.path := by
        intro known
        obtain ⟨other, member, equal⟩ := List.mem_map.mp known
        exact absent other member equal
      exact ⟨spec, List.mem_append_right _ (mem_newImports_iff_find?.mpr ⟨unknown, found⟩),
        rfl, binds⟩

/-- What the appended code uses is asked for, unless the contract's file imports
its own package under another name. -/
theorem requested_of_uses {addition : Addition} {name path : Text}
    (used : addition.Uses name path) :
    (∃ spec ∈ addition.requiredImports, spec.path = path ∧ spec.referenceName = name) ∨
      path = addition.contractImport.path ∧ name ≠ addition.contractImport.referenceName := by
  have behind {method : Method} {spec : Import} (missing : method ∈ addition.missing)
      (asked : spec ∈ addition.methodImports method) : spec ∈ addition.requiredImports :=
    List.mem_append_right _ (List.mem_flatMap.mpr ⟨method, missing, asked⟩)
  have declared {method : Method} (missing : method ∈ addition.missing)
      (mentioned :
        Qualification.refersTo method.types addition.contractImport.referenceName = true) :
      addition.contractImport ∈ addition.requiredImports := by
    have asked : addition.contractImport ∈ addition.methodImports method := by
      simp [Addition.methodImports, mentioned]
    exact behind missing asked
  cases used with
  | options fresh =>
      exact .inl ⟨libraries.options, by simp [Addition.requiredImports, fresh], rfl, rfl⟩
  | contract fresh named =>
      exact .inl
        ⟨addition.contractImport, by simp [Addition.requiredImports, fresh], rfl, rfl⟩
  | declared missing mentioned =>
      exact .inl ⟨addition.contractImport, declared missing mentioned, rfl, rfl⟩
  | @context method missing traced =>
      have asked : libraries.context ∈ addition.methodImports method := by
        simp [Addition.methodImports, traced]
      exact .inl ⟨_, behind missing asked, rfl, rfl⟩
  | @tracing method missing traced =>
      have asked : libraries.tracing ∈ addition.methodImports method := by
        simp [Addition.methodImports, traced]
      exact .inl ⟨_, behind missing asked, rfl, rfl⟩
  | @codes method missing traced fails =>
      have asked : libraries.codes ∈ addition.methodImports method := by
        simp [Addition.methodImports, traced, fails]
      exact .inl ⟨_, behind missing asked, rfl, rfl⟩
  | @errors method missing fails =>
      have asked : libraries.errors ∈ addition.methodImports method := by
        simp [Addition.methodImports, fails]
      exact .inl ⟨_, behind missing asked, rfl, rfl⟩
  | @imported method spec missing known mentioned =>
      by_cases own : spec.path = addition.contractImport.path
      · by_cases same : spec.referenceName = addition.contractImport.referenceName
        · exact .inl ⟨addition.contractImport, declared missing (same ▸ mentioned), own.symm,
            same.symm⟩
        · exact .inr ⟨own, same⟩
      · have asked : spec ∈ addition.methodImports method := by
          simp [Addition.methodImports, known, mentioned, own]
        exact .inl ⟨spec, behind missing asked, rfl, rfl⟩

/-- Every name that the appended code uses is asked for, unless it is an own name
of the contract's file for its own package.  It is bound exactly if an import of
the file binds it, or if the file does not import the path and the first request
for the path has this name. -/
theorem isBound_iff_of_uses
    {source? : Option Bytes} {implementations : List Implementation} {layout : FileLayout}
    {previous? : Option Text}
    (accepted : read source? implementations = .ok (layout, previous?))
    (resolver : Resolver) (path : Text) :
    ∃ merged, merge resolver path source? implementations = .ok merged ∧
      HasSection layout previous? (added resolver layout implementations) merged.text ∧
      ∀ addition ∈ additions resolver layout implementations, ∀ name package,
        addition.Uses name package →
          ((∃ spec ∈ required resolver layout implementations,
              spec.path = package ∧ spec.referenceName = name) ∨
            package = addition.contractImport.path ∧
              name ≠ addition.contractImport.referenceName) ∧
          (IsBound (layout.imports ++ added resolver layout implementations) name package ↔
            IsBound layout.imports name package ∨
              (∀ spec ∈ layout.imports, spec.path ≠ package) ∧
                ∃ spec, (required resolver layout implementations).find?
                    (fun other => other.path == package) = some spec ∧
                  spec.Binds name) := by
  refine ⟨complete resolver path layout previous? implementations, ?_,
    hasSection_complete accepted resolver path, ?_⟩
  · rw [merge, accepted]
  · intro addition planned name package used
    refine ⟨?_, isBound_newImports_iff⟩
    rcases requested_of_uses used with ⟨spec, asked, named⟩ | own
    · exact .inl ⟨spec, List.mem_flatMap.mpr ⟨addition, planned, asked⟩, named⟩
    · exact .inr own

/-- A file that knows the package of contexts by another name. -/
def renamedSource : Text :=
  "package usersimpl\n\nimport ctx \"context\"\n\ntype userRepositoryImpl ctx.Context\n"

def renamedLayout : FileLayout where
  head := "package usersimpl\n"
  tail := "\n\ntype userRepositoryImpl ctx.Context\n"
  lines := [⟨⟨"context", "ctx"⟩, []⟩]
  hasSection := true

theorem read_renamedSource (implementations : List Implementation) :
    read (some (Utf8.encode renamedSource)) implementations =
      .ok (renamedLayout, some renamedSource) := by
  have accepted : FileLayout.ofSource (Utf8.encode renamedSource) = .ok renamedLayout := by
    decide +kernel
  simp only [read, accepted, Utf8.decode_encode]
  rfl

/-- An implementation that lacks a method with a context. -/
def tracedImplementation : Implementation where
  contract :=
    { name := "UserRepository", packageName := "users", packagePath := "api/users",
      fileName := "users.go",
      methods := [{ name := "Find", parameters := [⟨"ctx", "context.Context"⟩] }],
      imports := [⟨"context", []⟩] }
  packageName := "usersimpl"
  packagePath := "internal/users"
  fileName := "f.go"

theorem isBound_iff_of_uses_renamed :
    read (some (Utf8.encode renamedSource)) [tracedImplementation] =
        .ok (renamedLayout, some renamedSource) ∧
      ∃ merged, merge plainResolver "f.go" (some (Utf8.encode renamedSource))
          [tracedImplementation] = .ok merged ∧
        HasSection renamedLayout (some renamedSource)
          (added plainResolver renamedLayout [tracedImplementation]) merged.text := by
  have accepted := read_renamedSource [tracedImplementation]
  obtain ⟨merged, run, shown, _⟩ := isBound_iff_of_uses accepted plainResolver "f.go"
  exact ⟨accepted, merged, run, shown⟩

/-- The stub takes a `context.Context`, and no import is known by this name. -/
theorem context_not_bound_renamed :
    (∃ merged, merge plainResolver "f.go" (some (Utf8.encode renamedSource))
        [tracedImplementation] = .ok merged ∧
      HasSection renamedLayout (some renamedSource)
        (added plainResolver renamedLayout [tracedImplementation]) merged.text) ∧
    ∃ addition ∈ additions plainResolver renamedLayout [tracedImplementation],
      addition.Uses "context" "context" ∧
      ¬ IsBound (renamedLayout.imports ++ added plainResolver renamedLayout [tracedImplementation])
        "context" "context" := by
  have accepted := read_renamedSource [tracedImplementation]
  refine ⟨⟨complete plainResolver "f.go" renamedLayout (some renamedSource)
    [tracedImplementation], ?_, hasSection_complete accepted plainResolver "f.go"⟩, ?_⟩
  · rw [merge, accepted]
  · refine ⟨_, List.mem_cons_self, .context List.mem_cons_self rfl, ?_⟩
    decide +kernel

end Merge

end Scaffold
