import Scaffold.Path.Basic

/-!
# Imports

An import makes a package available in a file under a name.  Without an
explicit name this is taken to be the last component of the path.
-/

namespace Scaffold

/-- A package imported under a name; without an explicit name the name is
empty. -/
structure Import where
  path : Text
  name : Text := []
  deriving Repr, DecidableEq

namespace Import

/-- The name under which the package is known without an explicit one. -/
def defaultName (spec : Import) : Text :=
  Path.baseName spec.path

/-- The name by which code refers to the package. -/
def referenceName (spec : Import) : Text :=
  if spec.name.isEmpty then spec.defaultName else spec.name

/-- The path between double quotes, behind the explicit name if there is one. -/
def render (spec : Import) : Text :=
  let quotedPath : Text := ['"'] ++ spec.path ++ ['"']
  if spec.name.isEmpty then quotedPath else spec.name ++ [' '] ++ quotedPath

/-- Packages of the standard library have no dot in their first component. -/
def isStandard (path : Text) : Bool :=
  !(path.takeWhile (· ≠ '/')).contains '.'

/-- The path is that of a module or of a package inside it; no path belongs to
the empty module. -/
def isLocal (path module : Text) : Bool :=
  !module.isEmpty && (path == module || Text.startsWith (module ++ ['/']) path)

end Import

end Scaffold
