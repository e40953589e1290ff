import Scaffold.Go.ImportBlock
import Scaffold.Implementation.Merge

/-!
# The registry

The registry is the file that lists the options of all implementations and holds
the directives that generate mocks of the contracts.  Its text does not depend
on the order in which the implementations are given.
-/

namespace Scaffold

namespace Registry

def header : Text :=
  ("// DO NOT MODIFY\n" : Text) ++
    ("// This file will be automatically regenerated based on the API.\n" : Text)

/-- The name of the variable that holds all options. -/
def variableName : Text := "Repositories"

/-- The directory of the mocks inside an implementation package. -/
def mocksDirectory : Text := "mocks"

/-- Order by package name and path, then the bare contract, then by contract
name. -/
def order (left right : Implementation) : Ordering :=
  let isOther (implementation : Implementation) : Nat :=
    if implementation.contract.name = Contract.suffix then 0 else 1
  (Text.order left.packageName right.packageName).then <|
    (Text.order left.packagePath right.packagePath).then <|
    (compare (isOther left) (isOther right)).then <|
    Text.order left.contract.name right.contract.name

/-- The implementations in the order of the registry. -/
def sort (implementations : List Implementation) : List Implementation :=
  Sorting.sort order implementations

/-- The file of a contract and the file of its mocks, both seen from the
directory of the registry. -/
structure Directive where
  source : Text
  destination : Text
  deriving Repr, DecidableEq

namespace Directive

/-- Order by source, then by destination. -/
def order (left right : Directive) : Ordering :=
  (Text.order left.source right.source).then (Text.order left.destination right.destination)

def render (directive : Directive) : Text :=
  "//go:generate mockgen -source=" ++ directive.source ++ " -destination=" ++
    directive.destination

/-- The directive for an implementation; there is none for a contract that no
file declares. -/
def ofImplementation? (current directory : Text) (implementation : Implementation) :
    Option Directive :=
  let contract := implementation.contract
  if contract.definitionPath.isEmpty then none
  else
    some
      { source := Path.relative current contract.definitionPath directory
        destination :=
          Path.relative current
            (Path.joinAll implementation.packagePath [mocksDirectory, contract.fileName])
            directory }

end Directive

/-- A contract without a file has no way to it. -/
inductive DirectiveFault where
  | noPath
  deriving Repr, DecidableEq

namespace DirectiveFault

def message : DirectiveFault → Text
  | noPath => "no path specified"

end DirectiveFault

/-- The different directives for some implementations, in ascending order.  The
directory of the registry and the paths of the implementations are seen from a
current directory. -/
def mockDirectives (current directory : Text) (implementations : List Implementation) :
    Except DirectiveFault (List Directive) :=
  match implementations.mapM (Directive.ofImplementation? current directory) with
  | none => .error .noPath
  | some directives => .ok (Sorting.sort Directive.order (Sorting.distinct directives))

/-- Finds the name by which the registry refers to each package, given the
imports that are known so far.  Its own package has an empty name. -/
def references (resolver : Resolver) (directory : Text) :
    List Import → List (Text × Text) → List Implementation → List Import × List (Text × Text)
  | known, found, [] => (known, found)
  | known, found, implementation :: rest =>
    let path := implementation.packagePath
    if found.any fun entry => entry.1 == path then references resolver directory known found rest
    else if Path.normalize path = directory then
      references resolver directory known (found ++ [(path, [])]) rest
    else
      let spec := resolver.resolve path implementation.packageName known
      references resolver directory (Merge.withImport spec known)
        (found ++ [(path, spec.referenceName)]) rest

/-- The options of an implementation as the registry refers to them. -/
def entry (found : List (Text × Text)) (implementation : Implementation) : Text :=
  let reference :=
    ((found.find? fun entry => entry.1 == implementation.packagePath).map Prod.snd).getD []
  if reference.isEmpty then implementation.optionsName
  else reference ++ ['.'] ++ implementation.optionsName

/-- The package name of the registry: that of the implementations in its
directory, or else the one that the directory suggests. -/
def packageName (resolver : Resolver) (directory : Text) (sorted : List Implementation) : Text :=
  match sorted.find? fun implementation =>
    Path.normalize implementation.packagePath = directory with
  | some implementation => implementation.packageName
  | none => resolver.packageName directory

/-- The lines that declare all options. -/
def optionsLines (found : List (Text × Text)) (sorted : List Implementation) : List Text :=
  ("var " ++ variableName ++ " = fx.Options(" : Text) ::
    (sorted.map (fun implementation => ['\t'] ++ entry found implementation ++ [',']) ++ [[')']])

/-- The lines of the directives, with an empty line after them. -/
def directiveLines (directives : List Directive) : List Text :=
  if directives.isEmpty then [] else directives.map Directive.render ++ [[]]

/-- The directories whose import paths the registry depends on. -/
def visited (directory : Text) (implementations : List Implementation) : List Text :=
  let paths := implementations.map Implementation.packagePath
  let isOwn (path : Text) : Bool := Path.normalize path == Path.normalize directory
  (if paths.any isOwn then [] else [directory]) ++ paths.filter fun path => !isOwn path

/-- The text of the registry in a directory. -/
def render (resolver : Resolver) (current directory : Text) (packageName? : Option Text)
    (implementations : List Implementation) : Except DirectiveFault Text :=
  let sorted := sort implementations
  let directory := Path.normalize directory
  let package := packageName?.getD (packageName resolver directory sorted)
  let (known, found) := references resolver directory [libraries.options] [] sorted
  match mockDirectives current directory sorted with
  | .error fault => .error fault
  | .ok directives =>
    .ok
      (header ++
        Text.ofLines
          (["package " ++ package, []] ++ directiveLines directives ++
            [ImportBlock.render resolver.module.path [] (known.map fun spec => ⟨spec, []⟩), []] ++
            optionsLines found sorted))

end Registry

end Scaffold
