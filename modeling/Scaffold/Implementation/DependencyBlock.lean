import Scaffold.Contract.Basic

/-!
# Dependency blocks

A dependency block declares a backing type with its dependencies, the
constructor that makes it from them, and the options that provide it.
-/

namespace Scaffold

namespace DependencyBlock

/-- The name of the struct with the dependencies. -/
def dependenciesName (contract : Contract) : Text :=
  contract.qualify "Dependencies"

/-- The name of the variable with the options. -/
def optionsName (contract : Contract) : Text :=
  contract.qualify "Options"

def constructorName (contract : Contract) : Text :=
  "New" ++ contract.name

/-- The type that the constructor returns: the contract behind the name of its
package, if the package has a name. -/
def returnType (qualifier : Text) (contract : Contract) : Text :=
  if qualifier.isEmpty then contract.name else qualifier ++ ['.'] ++ contract.name

/-- The declarations for a contract whose package has the given name. -/
def render (qualifier : Text) (contract : Contract) : Text :=
  let dependencies := dependenciesName contract
  let constructor := constructorName contract
  let backing := contract.backingName
  Text.ofLines
    ["type " ++ dependencies ++ " struct \x7b",
      "\tfx.In",
      "\t// Add dependencies here",
      "\x7d",
      "",
      "var " ++ optionsName contract ++ " = fx.Options(",
      "\tfx.Provide(",
      "\t\t" ++ constructor ++ ",",
      "\t),",
      ")",
      "",
      "func " ++ constructor ++ "(deps " ++ dependencies ++ ") " ++
        returnType qualifier contract ++ " \x7b",
      "\treturn &" ++ backing ++ "\x7b",
      "\t\t" ++ dependencies ++ ": deps,",
      "\t\x7d",
      "\x7d",
      "",
      "type " ++ backing ++ " struct \x7b",
      "\t" ++ dependencies,
      "\x7d"]

end DependencyBlock

end Scaffold
