import Scaffold.Module.Resolver
import Scaffold.Proofs.Path.Relative
import Scaffold.Proofs.Project.Places
import Scaffold.Registry

/-!
# Packages do not share places

Two packages of a crawl stand at the ends of different ways.  Their
implementation packages stand at the ends of the same ways below the
implementation directory, and whatever is computed from there leads to different
places: the import paths, and the files that mocks are written to.
-/

namespace Scaffold

open Path (IsComponent)

namespace Path

end Path

namespace Resolver

end Resolver

/-! ## Implementation packages at the ends of ways -/

/-- The path leads to the end of a way below a directory. -/
structure IsBelow (directory : Text) (way : Location) (path : Text) : Prop where
  components : Path.components path = Path.components (Path.normalize directory) ++ way
  relative : Path.isAbsolute path = false

namespace IsBelow

variable {directory : Text} {firstWay secondWay : Location} {firstPath secondPath : Text}

theorem components_join (below : IsBelow directory firstWay firstPath) (base : Text) :
    Path.components (Path.join base firstPath) =
      Path.components base ++ Path.components (Path.normalize directory) ++ firstWay := by
  rw [Path.components_join, below.relative, below.components, List.append_assoc]
  rfl

end IsBelow

namespace Registry

end Registry

/-! ## Packages of one crawl -/

namespace Package

theorem relativeSteps_of_relative {directory : Text}
    (relative : Path.isAbsolute directory = false) (root : Text) :
    relativeSteps root directory = Path.components directory := by
  rw [relativeSteps, Path.components_within relative, List.drop_left]

end Package

end Scaffold
