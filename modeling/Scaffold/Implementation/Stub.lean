import Scaffold.Implementation.Naming

/-!
# Stubs

A stub is a method of a backing type that is still to be written.  It has the
signature of the contract's method, traces the call if there is a context, wraps
the error if there is one, and panics.
-/

namespace Scaffold

/-- The names that a stub uses. -/
structure StubNames where
  parameters : List Parameter
  results : List Parameter
  receiver : Text
  span : Text
  deriving Repr, DecidableEq

namespace StubNames

def receiverName : Text := ['r']

def spanName : Text := ['s', 'p', 'a', 'n']

/-- Names everything in the stub of a method: results differ from parameters,
the receiver from both, and the span from all of them. -/
def ofMethod (method : Method) : StubNames :=
  let parameters := Naming.normalize [] method.parameters
  let results := Naming.normalize (Naming.names parameters) method.results
  let used := Naming.names parameters ++ Naming.names results
  let receiver := FreshName.choose receiverName used
  { parameters := parameters
    results := results
    receiver := receiver
    span := FreshName.choose spanName (used ++ [receiver]) }

def context (names : StubNames) : Text :=
  ((names.parameters.find? Parameter.isContext).map Parameter.name).getD Naming.contextName

def error (names : StubNames) : Text :=
  ((names.results.find? Parameter.isError).map Parameter.name).getD Naming.errorName

end StubNames

namespace Stub

/-- The method as it is called in messages: behind the qualified name of its
contract. -/
def label (contract : Contract) (method : Method) : Text :=
  contract.qualifiedName ++ ['.'] ++ method.name

def heading (contract : Contract) (method : Method) (names : StubNames) : Text :=
  let results := Naming.writeResults names.results
  "func (" ++ names.receiver ++ " *" ++ contract.backingName ++ ") " ++ method.name ++ "(" ++
    Naming.write names.parameters ++ ")" ++
    (if results.isEmpty then [' '] else [' '] ++ results ++ [' ']) ++ "\x7b"

def openSpan (contract : Contract) (method : Method) (names : StubNames) : Text :=
  "\t" ++ names.context ++ ", " ++ names.span ++ " := otel.GetTracerProvider().Tracer(\"" ++
    contract.packageName ++ "\").Start(" ++ names.context ++ ", \"" ++ contract.shortName ++
    "." ++ method.name ++ "\")"

/-- The lines that begin the wrapping of an error. -/
def wrapError (contract : Contract) (method : Method) (names : StubNames) : List Text :=
  ["\tdefer func() \x7b",
    "\t\tif " ++ names.error ++ " != nil \x7b",
    "\t\t\t" ++ names.error ++ " = eris.Wrap(" ++ names.error ++ ", \"" ++
      label contract method ++ "\")"]

/-- The lines that end the wrapping of an error. -/
def endWrapping : List Text :=
  ["\t\t\x7d", "\t\x7d()"]

/-- The lines that mark the span as failed and end it. -/
def failSpan (names : StubNames) : List Text :=
  ["\t\t\t" ++ names.span ++ ".SetStatus(codes.Error, \"\")",
    "\t\t\t" ++ names.span ++ ".RecordError(" ++ names.error ++ ")",
    "\t\t\x7d",
    "\t\t" ++ names.span ++ ".End()",
    "\t\x7d()"]

/-- The lines of tracing and of error handling. -/
def handling (contract : Contract) (method : Method) (names : StubNames) : List Text :=
  if method.hasContext then
    openSpan contract method names ::
      (if method.returnsError then wrapError contract method names ++ failSpan names
        else ["\tdefer " ++ names.span ++ ".End()"]) ++
      ["\t_ = " ++ names.context]
  else if method.returnsError then
    wrapError contract method names ++ endWrapping
  else []

def panicLine (contract : Contract) (method : Method) : Text :=
  "\tpanic(\"TODO: implement " ++ label contract method ++ "\")"

/-- The stub of a method whose types are written for the implementation
package. -/
def render (contract : Contract) (method : Method) : Text :=
  let names := StubNames.ofMethod method
  Text.ofLines
    (heading contract method names ::
      (handling contract method names ++ [panicLine contract method, ['\x7d']]))

end Stub

end Scaffold
