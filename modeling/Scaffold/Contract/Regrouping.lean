import Scaffold.Contract.Signature
import Scaffold.Go.Capture
import Scaffold.Notice
import Scaffold.Text.Quoted

/-!
# Contracts from a stream of captures

A stream of captures is regrouped into contracts with their methods.  What
follows a name belongs to the contract or method of that name, and a name that
comes again reopens what it named before, so repeats change nothing.
-/

namespace Scaffold

open Go (Event Label)

/-- A notice about a capture that has no place in a stream. -/
def unhandledCapture (event : Event) : Notice :=
  ⟨.error, "Unhandled capture '" ++ event.label.name ++ "': " ++ Text.quoted event.text⟩

/-- What has been regrouped so far, and the names of the contract and of the
method that are open. -/
structure Regrouping where
  package? : Option Text := none
  contracts : List Contract := []
  contract? : Option Text := none
  method? : Option Text := none
  notices : List Notice := []
  deriving Repr, DecidableEq

namespace Contract

/-- Changes the contract of a name. -/
def change (name : Text) (change : Contract → Contract) (contracts : List Contract) :
    List Contract :=
  contracts.map fun contract => if contract.name = name then change contract else contract

def changeMethod (name : Text) (change : Method → Method) (contract : Contract) : Contract :=
  { contract with
    methods := contract.methods.map fun method =>
      if method.name = name then change method else method }

/-- Adds a method without a signature, unless there is one of that name. -/
def declareMethod (name : Text) (contract : Contract) : Contract :=
  if name ∈ contract.methodNames then contract
  else { contract with methods := contract.methods ++ [{ name := name }] }

/-- The name of the method that was declared last. -/
def lastMethod? (contract : Contract) : Option Text :=
  contract.methodNames.getLast?

end Contract

namespace Regrouping

def takePackage (name : Text) (state : Regrouping) : Regrouping :=
  { state with package? := state.package?.or (some name) }

/-- Opens the contract of a name.  A contract that was left is continued at its
last method, and the one that is open stays as it is. -/
def openContract (name : Text) (state : Regrouping) : Regrouping :=
  if state.contract? = some name then state
  else
    match state.contracts.find? fun contract => contract.name == name with
    | some contract =>
      { state with contract? := some name, method? := contract.lastMethod? }
    | none =>
      { state with
        contracts := state.contracts ++ [{ name := name }]
        contract? := some name
        method? := none }

/-- Opens the method of a name in the open contract. -/
def openMethod (contract name : Text) (state : Regrouping) : Regrouping :=
  { state with
    contracts := Contract.change contract (Contract.declareMethod name) state.contracts
    method? := some name }

/-- Changes the open method of the open contract, if one is open. -/
def describeMethod (contract : Text) (change : Method → Method) (state : Regrouping) :
    Regrouping :=
  match state.method? with
  | none => state
  | some method =>
    { state with
      contracts := Contract.change contract (Contract.changeMethod method change)
        state.contracts }

/-- Reads the text of a parameter or result list for the open method. -/
def readList (contract text : Text) (assign : List Parameter → Method → Method)
    (state : Regrouping) : Except Signature.Untyped Regrouping :=
  if state.method?.isNone then .ok state
  else
    match Signature.parse text with
    | .error fault => .error fault
    | .ok parameters => .ok (state.describeMethod contract (assign parameters))

/-- Takes in a capture.  Before the first contract only package names count. -/
def step (state : Regrouping) (event : Event) : Except Signature.Untyped Regrouping :=
  match event.label, state.contract? with
  | .package, _ => .ok (state.takePackage event.text)
  | .contract, _ => .ok (state.openContract event.text)
  | _, none => .ok state
  | .method, some contract => .ok (state.openMethod contract event.text)
  | .parameters, some contract =>
    state.readList contract event.text fun list method => { method with parameters := list }
  | .result, some contract =>
    state.readList contract event.text fun list method => { method with results := list }
  | _, some _ => .ok { state with notices := state.notices ++ [unhandledCapture event] }

/-- Takes in captures one after the other. -/
def continueWith (state : Regrouping) : List Event → Except Signature.Untyped Regrouping
  | [] => .ok state
  | event :: rest =>
    match state.step event with
    | .error fault => .error fault
    | .ok next => next.continueWith rest

def ofEvents (events : List Event) : Except Signature.Untyped Regrouping :=
  continueWith {} events

end Regrouping

end Scaffold
