import Scaffold.Import
import Scaffold.Text.Lower

/-!
# Contracts and their names

A contract is an interface whose name ends in `Repository`.  All names that
belong to a contract are made from its own name: the name of the type that
backs it, of the file that holds this type, and of the declarations around it.
-/

namespace Scaffold

/-- An entry of a parameter or result list.  The name is empty for an entry
without one. -/
structure Parameter where
  name : Text := []
  type : Text := []
  deriving Repr, DecidableEq

namespace Parameter

def contextType : Text := "context.Context"

def errorType : Text := "error"

def isContext (parameter : Parameter) : Bool :=
  parameter.type == contextType

def isError (parameter : Parameter) : Bool :=
  parameter.type == errorType

def isNamed (parameter : Parameter) : Bool :=
  !parameter.name.isEmpty

end Parameter

/-- A method with its signature. -/
structure Method where
  name : Text
  parameters : List Parameter := []
  results : List Parameter := []
  deriving Repr, DecidableEq

namespace Method

def hasContext (method : Method) : Bool :=
  method.parameters.any Parameter.isContext

def returnsError (method : Method) : Bool :=
  method.results.any Parameter.isError

end Method

/-- An interface that is to be implemented, with the package and the file that
declare it and the imports of that file. -/
structure Contract where
  name : Text
  packageName : Text := []
  packagePath : Text := []
  fileName : Text := []
  methods : List Method := []
  imports : List Import := []
  deriving Repr, DecidableEq

namespace Contract

/-- What the names of contracts end in. -/
def suffix : Text := "Repository"

/-- What the names of backing types end in. -/
def backingSuffix : Text := "Impl"

/-- What the names of implementation packages end in. -/
def packageSuffix : Text := "impl"

/-- What the names of implementation files end in. -/
def fileSuffix : Text := "_impl.go"

/-- The name without the suffix, unless nothing else would be left. -/
def shortName (contract : Contract) : Text :=
  if suffix.length < contract.name.length ∧ Text.endsWith suffix contract.name then
    Text.dropLast suffix.length contract.name
  else contract.name

/-- The contract is named by the suffix alone. -/
def isBare (contract : Contract) : Bool :=
  contract.shortName == suffix

/-- The name of the backing type: the contract's name, starting in lower case,
and a suffix. -/
def backingName (contract : Contract) : Text :=
  match contract.name with
  | [] => []
  | first :: rest => Text.lower [first] ++ rest ++ backingSuffix

/-- The name behind the name of its package. -/
def qualifiedName (contract : Contract) : Text :=
  if contract.packageName.isEmpty then contract.name
  else contract.packageName ++ ['.'] ++ contract.name

/-- The path of the file that declares the contract. -/
def definitionPath (contract : Contract) : Text :=
  Path.join contract.packagePath contract.fileName

/-- A name made the contract's own by putting the short name before it; a bare
contract leaves it as it is. -/
def qualify (contract : Contract) (name : Text) : Text :=
  if contract.isBare then name else contract.shortName ++ name

/-- The names of the methods in order of declaration. -/
def methodNames (contract : Contract) : List Text :=
  contract.methods.map Method.name

/-- The name of the file that a new backing type goes to. -/
def defaultFileName (contract : Contract) : Text :=
  Text.lower contract.shortName ++ fileSuffix

end Contract

/-- The name of the package that implements the contracts of a package. -/
def implementationPackageName (package : Text) : Text :=
  package ++ Contract.packageSuffix

end Scaffold
