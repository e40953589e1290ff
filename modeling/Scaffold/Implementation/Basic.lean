import Scaffold.Contract.Qualification

/-!
# Implementations

An implementation is a contract together with what its implementation package
has for it already: the file of the backing type and the names of the methods
that are written.
-/

namespace Scaffold

/-- A contract with the state of its implementation. -/
structure Implementation where
  contract : Contract
  packageName : Text := []
  packagePath : Text := []
  fileName : Text := []
  existing : List Text := []
  isNew : Bool := false
  deriving Repr, DecidableEq

namespace Implementation

/-- The path of the file that holds the backing type. -/
def path (implementation : Implementation) : Text :=
  Path.join implementation.packagePath implementation.fileName

/-- The name of the variable with the options of the implementation. -/
def optionsName (implementation : Implementation) : Text :=
  implementation.contract.qualify "Options"

/-- The methods that are not written yet, in order of declaration, as they are
written where the contract's package has the given name. -/
def missingMethods (qualifier : Text) (implementation : Implementation) : List Method :=
  (implementation.contract.methods.filter fun method =>
    !implementation.existing.contains method.name).map (Method.qualified qualifier)

end Implementation

end Scaffold
