import Scaffold.Module.Search

/-!
# Looking up a module once

A lookup remembers the module it has found.  A search that fails is made again
at the next access.
-/

namespace Scaffold

namespace Module

/-- The module of a directory, once it is found. -/
structure Lookup where
  start : Text
  found? : Option Module := none
  deriving Repr, DecidableEq

namespace Lookup

/-- What an access gives, seen from a current directory, and the lookup after
it. -/
def access (disk : Disk) (current : Text) (lookup : Lookup) :
    Except ModuleFault Module × Lookup :=
  match lookup.found? with
  | some found => (.ok found, lookup)
  | none =>
    match Module.find disk current lookup.start with
    | .ok found => (.ok found, { lookup with found? := some found })
    | .error fault => (.error fault, lookup)

end Lookup

end Module

end Scaffold
