import Scaffold.Yaml.Lexer
import Scaffold.Yaml.Node
import Scaffold.Yaml.Resolution

/-!
# Reading YAML

Nodes become values.  Of entries with one key the last counts, and entries that
are merged in count less than all others.
-/

namespace Scaffold

namespace Yaml

def standard (name : Text) : Text :=
  Tag.standardBeginning ++ name

/-- The value of a scalar under a tag. -/
def taggedScalar? (tag text : Text) : Option Value :=
  if tag = standard "str" then some (.text text)
  else if tag = standard "null" then some .null
  else if tag = standard "int" then integer? text
  else if tag = standard "float" then
    match decimal? text with
    | some value => some value
    | none =>
      match integer? text with
      | some (.integer value) => some (.decimal (value < 0) value.natAbs 0)
      | _ => none
  else if tag = standard "bool" then
    match plainValue? text with
    | some (.bool value) => some (.bool value)
    | _ => none
  else if tag = standard "timestamp" then
    if isTimestamp text then some (.scalar text) else none
  else if tag = Tag.alone then plainValue? text
  else none

def scalarValue? (tag? : Option Text) (text : Text) (isPlain : Bool) : Option Value :=
  match tag? with
  | some tag => taggedScalar? tag text
  | none => if isPlain then plainValue? text else some (.text text)

/-- A collection has no tag but the one of its kind. -/
def allowsTag (kind : Text) : Option Text → Bool
  | none => true
  | some tag => tag == standard kind || tag == Tag.alone

/-- A value as a key; collections are none. -/
def keyOf? : Value → Option Key
  | .text text => some (.name text)
  | .null => some (.other "null")
  | .bool value => some (.other (if value then "true" else "false"))
  | .list _ => none
  | .mapping _ => none
  | value => some (.other value.shown)

/-- The node is a key with a special meaning. -/
def isSpecialKey (key : Text) : Node → Bool
  | .scalar none text true => text == key
  | _ => false

def entriesOf? : Value → Option (List (Key × Value))
  | .mapping entries => some entries
  | _ => none

/-- The entries that a value merges into a mapping: those of a mapping, or of
several, the earlier ones counting more. -/
def mergedEntries? : Value → Option (List (Key × Value))
  | .list items => (items.reverse.mapM entriesOf?).map List.flatten
  | value => entriesOf? value

/-- Entries of a mapping: those that are merged in, and its own. -/
structure Entries where
  merged : List (Key × Value) := []
  own : List (Key × Value) := []

mutual

def Node.value? : Node → Option Value
  | .scalar tag? text isPlain => scalarValue? tag? text isPlain
  | .sequence tag? items =>
    if allowsTag "seq" tag? then (itemValues? items).map .list else none
  | .mapping tag? entries =>
    if allowsTag "map" tag? then
      (entryValues? entries).map fun found => .ofEntries (found.merged ++ found.own)
    else none

def itemValues? : List Node → Option (List Value)
  | [] => some []
  | item :: rest =>
    match item.value?, itemValues? rest with
    | some value, some values => some (value :: values)
    | _, _ => none

/-- The entries of several pairs of nodes. -/
def entryValues? : List (Node × Node) → Option Entries
  | [] => some {}
  | (key, item) :: rest =>
    match item.value?, entryValues? rest with
    | some value, some found =>
      if isSpecialKey mergeKey key then
        (mergedEntries? value).map fun entries =>
          { found with merged := entries ++ found.merged }
      else
        let keyValue := if isSpecialKey defaultKey key then some (.text defaultKey) else key.value?
        match keyValue.bind keyOf? with
        | some name => some { found with own := (name, value) :: found.own }
        | none => none
    | _, _ => none

end

/-- The value of a stream; an empty one is null. -/
def read? (text : Text) : Option Value :=
  match tokens? text with
  | none => none
  | some tokens =>
    match readStream tokens with
    | none => none
    | some none => some .null
    | some (some node) => node.value?

end Yaml

end Scaffold
