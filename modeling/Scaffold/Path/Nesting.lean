import Scaffold.Path.Basic

/-!
# Directories below a root

A directory below one root corresponds to the directory with the same components
below another root.
-/

namespace Scaffold

/-- A directory that is not below the root it should be below. -/
structure OutsideRoot where
  path : Text
  root : Text
  deriving Repr, DecidableEq

namespace OutsideRoot

def message (fault : OutsideRoot) : Text :=
  fault.path ++ " is not nested under the API root " ++ fault.root

end OutsideRoot

namespace Path

/-- The components of a normalised path; the current directory has none, and an
absolute path begins with an empty one. -/
def steps (path : Text) : List Text :=
  if path = here then [] else Text.splitOn '/' path

/-- The components of a normalised path below a normalised root. -/
def below? (root path : Text) : Option (List Text) :=
  let rootSteps := steps root
  let pathSteps := steps path
  if rootSteps.isPrefixOf pathSteps then some (pathSteps.drop rootSteps.length) else none

/-- The directory below the target that corresponds to a directory below the
root. -/
def transplant (root target path : Text) : Except OutsideRoot Text :=
  let root := normalize root
  let path := normalize path
  match below? root path with
  | none => .error ⟨path, root⟩
  | some [] => .ok (normalize target)
  | some relative => .ok (normalize (joinAll (normalize target) relative))

end Path

end Scaffold
