import Scaffold.Go.SourceFile
import Scaffold.Contract.Basic
import Scaffold.Sorting

/-!
# Captures

The parts of a source file that matter to contracts and to their
implementations, as a stream of labelled texts in source order.
-/

namespace Scaffold

namespace Go

/-- What a captured text is. -/
inductive Label where
  | package
  | contract
  | typeName
  | receiver
  | method
  | parameters
  | result
  | other (name : Text)
  deriving Repr, DecidableEq

namespace Label

def name : Label → Text
  | package => "package"
  | contract => "contract"
  | typeName => "type_name"
  | receiver => "receiver"
  | method => "method"
  | parameters => "params"
  | result => "result"
  | other name => name

/-- The labels that are not given by name only. -/
def known : List Label :=
  [package, contract, typeName, receiver, method, parameters, result]

def ofName (name : Text) : Label :=
  (known.find? fun label => label.name == name).getD (other name)

/-- The order of captures that start at the same place. -/
def rank : Label → Nat
  | package => 0
  | contract => 1
  | typeName => 1
  | receiver => 2
  | method => 3
  | parameters => 4
  | result => 5
  | other _ => 6

end Label

/-- A labelled text. -/
structure Event where
  label : Label
  text : Text
  deriving Repr, DecidableEq

/-- A labelled text with its place in the source. -/
structure Capture extends Event where
  start : Nat
  stop : Nat
  deriving Repr, DecidableEq

namespace Capture

/-- Captures a tree, comments blanked out. -/
def ofTree (label : Label) (tree : Tree) : Capture :=
  ⟨⟨label, tree.code⟩, tree.start, tree.stop⟩

/-- Earlier captures first, and at the same place by rank. -/
def order (left right : Capture) : Ordering :=
  (compare left.start right.start).then (compare left.label.rank right.label.rank)

end Capture

namespace SourceFile

def packageCaptures (file : SourceFile) : List Capture :=
  (file.topLevel .packageClause).flatMap fun clause =>
    (clause.parts .name).map (Capture.ofTree .package)

/-- The captures of an interface method. -/
def methodCaptures (element : Tree) : List Capture :=
  (element.parts .name).map (Capture.ofTree .method) ++
    (element.parts .parameterList).map (Capture.ofTree .parameters) ++
    (element.parts .result).map (Capture.ofTree .result)

/-- The names that a declaration introduces and that end in a suffix. -/
def namesEndingIn (suffix : Text) (declaration : Tree) : List Tree :=
  (declaration.parts .name).filter fun name => Text.endsWith suffix name.text

/-- The captures of a type that is a contract. -/
def contractTypeCaptures (spec : Tree) : List Capture :=
  match spec.children.getLast? with
  | some (.node .interfaceType elements) =>
    (namesEndingIn Contract.suffix spec).flatMap fun name =>
      Capture.ofTree .contract name ::
        (elements.filter (Tree.isA .methodElement)).flatMap methodCaptures
  | _ => []

/-- The package names and contracts of a file. -/
def contractCaptures (file : SourceFile) : List Capture :=
  Sorting.sort Capture.order
    (file.packageCaptures ++ (file.inside .typeSpec).flatMap contractTypeCaptures)

/-- The receiver types of a method that end in the suffix of backing types. -/
def receiverTypes (method : Tree) : List Tree :=
  (((method.parts .receiver).flatMap (Tree.parts .parameterList)).flatMap
    (Tree.parts .parameter)).flatMap fun parameter =>
      (parameter.parts .parameterType).filter fun type =>
        Text.endsWith Contract.backingSuffix type.text

/-- The captures of a method on a backing type. -/
def backingMethodCaptures (method : Tree) : List Capture :=
  match receiverTypes method with
  | [] => []
  | types =>
    types.map (Capture.ofTree .receiver) ++ (method.parts .name).map (Capture.ofTree .method)

/-- The package names, backing types and their methods of a file. -/
def implementationCaptures (file : SourceFile) : List Capture :=
  Sorting.sort Capture.order
    (file.packageCaptures ++
      ((file.inside .typeSpec).flatMap fun spec =>
        (namesEndingIn Contract.backingSuffix spec).map (Capture.ofTree .typeName)) ++
      (file.topLevel .methodDeclaration).flatMap backingMethodCaptures)

end SourceFile

end Go

end Scaffold
