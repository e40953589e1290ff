import Scaffold.FreshName
import Scaffold.Import

/-!
# Import paths of local packages

The import path of a local package is the path of its module followed by the way
from the directory of the module to the package.
-/

namespace Scaffold

/-- A module: its path and its directory. -/
structure Module where
  path : Text
  directory : Text
  deriving Repr, DecidableEq

/-- A project inside a module.  The root is an absolute path. -/
structure Resolver where
  root : Text
  module : Module
  deriving Repr, DecidableEq

namespace Resolver

/-- The import path of the package in a directory of the project. -/
def importPath (resolver : Resolver) (directory : Text) : Text :=
  let relative :=
    Path.relative ['/'] (Path.resolve resolver.root directory) resolver.module.directory
  if relative = Path.here then resolver.module.path
  else Path.join resolver.module.path relative

/-- The path without the given character. -/
def without (character : Char) (text : Text) : Text :=
  text.filter (· ≠ character)

/-- The name that the importing file gives to a package at a path: the declared
one, or else the last component without low lines.  It is empty if the last
component serves as it is. -/
def preferredName (path declared : Text) : Text :=
  let base := Path.baseName path
  let name :=
    if declared.isEmpty ∨ declared = base then without '_' base else declared
  if name = base then [] else name

/-- A package at a path, imported under a name that differs from those of the
given imports. -/
def freshImport (path declared : Text) (present : List Import) : Import :=
  let preferred : Import := ⟨path, preferredName path declared⟩
  let name := preferred.referenceName
  let chosen := FreshName.choose name (present.map Import.referenceName)
  if chosen = name then preferred else ⟨path, chosen⟩

/-- The import of the package in a directory into a file with the given
imports: the one that is there, or a new one under a free name. -/
def resolve (resolver : Resolver) (directory declared : Text) (present : List Import) : Import :=
  let path := resolver.importPath directory
  match present.find? fun spec => spec.path == path with
  | some spec => spec
  | none => freshImport path declared present

/-- The package name that a directory suggests. -/
def packageName (resolver : Resolver) (directory : Text) : Text :=
  without '-' (without '_' (Path.baseName (resolver.importPath directory)))

end Resolver

end Scaffold
