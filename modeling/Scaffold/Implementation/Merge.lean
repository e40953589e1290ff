import Scaffold.Go.FileLayout
import Scaffold.Implementation.Basic
import Scaffold.Implementation.DependencyBlock
import Scaffold.Implementation.Stub
import Scaffold.Module.Resolver

/-!
# Merging generated code into a file

What a file holds is kept.  New declarations are appended, and where they need
imports that the file lacks, the import section is rebuilt with all imports.
Without anything to add the text stays as it is.
-/

namespace Scaffold

open Go (CutFault FileLayout)

/-- The imports that generated code refers to. -/
structure Libraries where
  options : Import := ⟨"go.uber.org/fx", []⟩
  context : Import := ⟨"context", []⟩
  tracing : Import := ⟨"go.opentelemetry.io/otel", []⟩
  codes : Import := ⟨"go.opentelemetry.io/otel/codes", []⟩
  errors : Import := ⟨"github.com/rotisserie/eris", []⟩

/-- The imports as generated code refers to them. -/
def libraries : Libraries := {}

/-- The text of a file after a merge.  `previous?` is the text before, if there
was a file. -/
structure Merged where
  path : Text
  text : Text
  previous? : Option Text
  newTypes : Nat
  newMethods : Nat
  deriving Repr, DecidableEq

namespace Merged

def isCreated (merged : Merged) : Bool :=
  merged.previous?.isNone

/-- The text differs from the one before. -/
def isChanged (merged : Merged) : Bool :=
  merged.previous? != some merged.text

end Merged

/-- What is to be written for an implementation: the import of the contract's
package and the missing methods. -/
structure Addition where
  implementation : Implementation
  contractImport : Import
  missing : List Method
  deriving Repr, DecidableEq

namespace Addition

/-- The imports that the stub of a method needs. -/
def methodImports (addition : Addition) (method : Method) : List Import :=
  let types := method.types
  (if Qualification.refersTo types addition.contractImport.referenceName then
      [addition.contractImport]
    else []) ++
  (if method.hasContext then
      [libraries.context, libraries.tracing] ++
        (if method.returnsError then [libraries.codes] else [])
    else []) ++
  (if method.returnsError then [libraries.errors] else []) ++
  addition.implementation.contract.imports.filter fun spec =>
    spec.path != addition.contractImport.path &&
      Qualification.refersTo types spec.referenceName

/-- The imports that the addition needs. -/
def requiredImports (addition : Addition) : List Import :=
  (if addition.implementation.isNew then [libraries.options, addition.contractImport] else []) ++
    addition.missing.flatMap addition.methodImports

/-- The dependency block, for a new backing type. -/
def dependencyBlocks (addition : Addition) : List Text :=
  if addition.implementation.isNew then
    [DependencyBlock.render addition.contractImport.referenceName addition.implementation.contract]
  else []

/-- The stubs of the missing methods. -/
def stubs (addition : Addition) : List Text :=
  addition.missing.map (Stub.render addition.implementation.contract)

end Addition

namespace Merge

/-- What begins every generated implementation file. -/
def preamble : Text :=
  ("// This file will be automatically regenerated based on the API. " : Text) ++
    ("Any repository implementations\n" : Text) ++
    ("// will be copied through when generating and new methods " : Text) ++
    ("will be added to the end.\n" : Text)

/-- The imports with another one, unless its path is among them. -/
def withImport (spec : Import) (present : List Import) : List Import :=
  if present.any fun other => other.path == spec.path then present else present ++ [spec]

/-- Finds out what is to be written for each implementation, given the imports
that are known so far. -/
def plan (resolver : Resolver) (known : List Import) : List Implementation → List Addition
  | [] => []
  | implementation :: rest =>
    let contract := implementation.contract
    let contractImport := resolver.resolve contract.packagePath contract.packageName known
    { implementation := implementation
      contractImport := contractImport
      missing := implementation.missingMethods contractImport.referenceName } ::
      plan resolver (withImport contractImport known) rest

/-- The required imports whose paths are not present yet, each path once. -/
def newImports (present : List Text) : List Import → List Import
  | [] => []
  | spec :: rest =>
    if spec.path ∈ present then newImports present rest
    else spec :: newImports (spec.path :: present) rest

/-- The text with some imports added; without any a file stays as it is. -/
def withImports (module : Text) (previous? : Option Text) (layout : FileLayout)
    (added : List Import) : Text :=
  let lines := layout.lines ++ added.map fun spec => ⟨spec, []⟩
  match previous?, added with
  | some previous, [] => previous
  | _, _ =>
    if lines.isEmpty then layout.head ++ layout.tail
    else
      layout.head ++ ['\n'] ++ ImportBlock.render module layout.comments lines ++
        (if layout.hasSection then layout.tail else '\n' :: layout.tail)

/-- The text with blocks appended, each behind an empty line. -/
def append (blocks : List Text) (text : Text) : Text :=
  if blocks.isEmpty then text
  else
    text ++ (if Text.endsWith ['\n'] text then [] else ['\n']) ++ blocks.flatMap ('\n' :: ·)

/-- The layout of a file that does not exist yet. -/
def emptyLayout (implementations : List Implementation) : FileLayout :=
  let package := (implementations.head?.map Implementation.packageName).getD []
  { head := preamble ++ "package " ++ package ++ ['\n'], tail := [] }

/-- The layout of a file, and its text if it exists. -/
def read (source? : Option Bytes) (implementations : List Implementation) :
    Except CutFault (FileLayout × Option Text) :=
  match source? with
  | none => .ok (emptyLayout implementations, none)
  | some source =>
    match FileLayout.ofSource source with
    | .error fault => .error fault
    | .ok layout => .ok (layout, (Utf8.decode source).toOption)

/-- Completes a file that has been read with what is to be written for some
implementations. -/
def complete (resolver : Resolver) (path : Text) (layout : FileLayout) (previous? : Option Text)
    (implementations : List Implementation) : Merged :=
  let additions := plan resolver layout.imports implementations
  let added :=
    newImports (layout.imports.map Import.path) (additions.flatMap Addition.requiredImports)
  let text := withImports resolver.module.path previous? layout added
  let dependencyBlocks := additions.flatMap Addition.dependencyBlocks
  let stubs := additions.flatMap Addition.stubs
  { path := path
    text := append (dependencyBlocks ++ stubs) text
    previous? := previous?
    newTypes := dependencyBlocks.length
    newMethods := stubs.length }

/-- Merges what is to be written for some implementations into the file at a
path. -/
def merge (resolver : Resolver) (path : Text) (source? : Option Bytes)
    (implementations : List Implementation) : Except CutFault Merged :=
  match read source? implementations with
  | .error fault => .error fault
  | .ok (layout, previous?) => .ok (complete resolver path layout previous? implementations)

end Merge

end Scaffold
