import Scaffold.Contract.Basic
import Scaffold.Text.Word

/-!
# Qualified types

Outside its own package a type is named behind the name of its package.  An
exported name begins with a capital letter of ASCII.  It is qualified already if
a dot stands before it, unless this dot ends an ellipsis, and it is a package
name itself if a dot follows it.
-/

namespace Scaffold

namespace Qualification

/-- A name without a qualifier may begin after a text that is given last
character first. -/
def mayBegin : Text → Bool
  | [] => true
  | '.' :: '.' :: '.' :: _ => true
  | previous :: _ => !Text.isWord previous && previous != '.'

/-- The letter that begins exported names. -/
def isCapital (character : Char) : Bool :=
  65 ≤ character.toNat && character.toNat ≤ 90

/-- An exported name without a qualifier begins here, where the text before is
given last character first. -/
def isUnqualified (before : Text) : Text → Bool
  | [] => false
  | character :: rest =>
    isCapital character && mayBegin before &&
      (rest.dropWhile Text.isWord).head? != some '.'

/-- Qualifies the names in a text of which the beginning has been dealt with. -/
def qualifyFrom (qualifier : Text) (before : Text) : Text → Text
  | [] => []
  | character :: rest =>
    let inserted : Text :=
      if isUnqualified before (character :: rest) then qualifier ++ ['.'] else []
    inserted ++ character :: qualifyFrom qualifier (character :: before) rest

/-- A type with every exported name that has no qualifier behind the given one;
an empty qualifier leaves the type as it is. -/
def qualifyType (qualifier type : Text) : Text :=
  if qualifier.isEmpty then type else qualifyFrom qualifier [] type

/-- Parameters with qualified types. -/
def qualifyAll (qualifier : Text) (parameters : List Parameter) : List Parameter :=
  parameters.map fun parameter => { parameter with type := qualifyType qualifier parameter.type }

/-- Some place of a text, the beginning of which has been dealt with, refers to a
package: the name and a dot stand there and a name may begin there. -/
def refersFrom (name : Text) (before : Text) : Text → Bool
  | [] => false
  | character :: rest =>
    (mayBegin before && Text.startsWith (name ++ ['.']) (character :: rest)) ||
      refersFrom name (character :: before) rest

/-- The types mention the package of a name.  The names of blank and of dot
imports are never mentioned. -/
def refersTo (types name : Text) : Bool :=
  !name.isEmpty && name != ['_'] && name != ['.'] && refersFrom name [] types

end Qualification

namespace Method

/-- The method as it is written outside the package of its contract. -/
def qualified (qualifier : Text) (method : Method) : Method :=
  { method with
    parameters := Qualification.qualifyAll qualifier method.parameters
    results := Qualification.qualifyAll qualifier method.results }

/-- All types of the signature, with spaces between them. -/
def types (method : Method) : Text :=
  Text.join [' '] ((method.parameters ++ method.results).map Parameter.type)

end Method

end Scaffold
