import Scaffold.Contract.Basic
import Scaffold.FreshName

/-!
# Names for parameters

Generated code refers to the context and to the error of a method, so these get
names of their own as soon as a list needs any names at all.  The other entries
keep their names or become blank.
-/

namespace Scaffold

namespace Naming

/-- The name of an entry that nothing refers to. -/
def blank : Text := ['_']

/-- The name that generated code gives to contexts. -/
def contextName : Text := ['c', 't', 'x']

/-- The name that generated code gives to errors. -/
def errorName : Text := ['e', 'r', 'r']

/-- The entry is a context or an error. -/
def isGenerated (parameter : Parameter) : Bool :=
  parameter.isContext || parameter.isError

def needsNames (parameters : List Parameter) : Bool :=
  parameters.any fun parameter => isGenerated parameter || parameter.isNamed

def keptNames (parameters : List Parameter) : List Text :=
  (parameters.filter fun parameter =>
    parameter.isNamed && parameter.name != blank && !isGenerated parameter).map Parameter.name

/-- Names the entries, given the names that are taken. -/
def nameEntries (taken : List Text) : List Parameter → List Parameter
  | [] => []
  | parameter :: rest =>
    if isGenerated parameter then
      let name :=
        FreshName.choose (if parameter.isContext then contextName else errorName) taken
      { parameter with name := name } :: nameEntries (name :: taken) rest
    else if parameter.isNamed then parameter :: nameEntries taken rest
    else { parameter with name := blank } :: nameEntries taken rest

/-- The list with names wherever it needs them, none of the generated ones
being reserved. -/
def normalize (reserved : List Text) (parameters : List Parameter) : List Parameter :=
  if needsNames parameters then nameEntries (reserved ++ keptNames parameters) parameters
  else parameters

/-- The names of the entries that have one. -/
def names (parameters : List Parameter) : List Text :=
  (parameters.filter Parameter.isNamed).map Parameter.name

/-- Writes the entries; of neighbours with one type only the last shows it. -/
def writeEntries : List Parameter → List Text
  | [] => []
  | parameter :: rest =>
    let sharesType :=
      match rest with
      | [] => false
      | next :: _ => next.isNamed && next.type == parameter.type
    (if !parameter.isNamed then parameter.type
      else if sharesType then parameter.name
      else parameter.name ++ [' '] ++ parameter.type) :: writeEntries rest

/-- A list as it is written, without parentheses. -/
def write (parameters : List Parameter) : Text :=
  Text.join [',', ' '] (writeEntries parameters)

/-- A result list as it is written: in parentheses if it has names or several
entries. -/
def writeResults (results : List Parameter) : Text :=
  if results.any Parameter.isNamed || 1 < results.length then
    ['('] ++ write results ++ [')']
  else write results

/-- The parameter list of a method, without parentheses. -/
def renderParameters (parameters : List Parameter) : Text :=
  write (normalize [] parameters)

def renderResults (results : List Parameter) : Text :=
  writeResults (normalize [] results)

end Naming

end Scaffold
