import Scaffold.Yaml.Lexer

/-!
# Nodes of YAML

The tokens of a stream make one document, which holds one node or none.  An
alias stands for the node that its anchor was put on before.
-/

namespace Scaffold

namespace Yaml

/-- A node with its tag, if it has one. -/
inductive Node where
  | scalar (tag? : Option Text) (text : Text) (isPlain : Bool)
  | sequence (tag? : Option Text) (items : List Node)
  | mapping (tag? : Option Text) (entries : List (Node × Node))
  deriving Repr

namespace Node

/-- The node that stands where nothing is written. -/
def empty : Node :=
  scalar none [] true

end Node

/-- The tokens still to be read, and what is known from those before. -/
structure Reading where
  tokens : List Token
  anchors : List (Text × Node) := []
  /-- What the tags of each handle begin with. -/
  handles : List (Text × Text) := Tag.usualHandles

/-- A result and what is still to be read. -/
abbrev Read (Result : Type) := Option (Result × Reading)

/-- Where a node stands; in some places a sequence may stand without
indentation. -/
inductive Place where
  | flow
  | block
  | mappingValue
  deriving Repr, DecidableEq

namespace Reading

def head? (reading : Reading) : Option Token :=
  reading.tokens.head?

/-- The next token is one of some. -/
def seesOne (reading : Reading) (tokens : List Token) : Bool :=
  reading.head?.any tokens.contains

def drop (reading : Reading) : Reading :=
  { reading with tokens := reading.tokens.drop 1 }

/-- Past the next token, which must be the given one. -/
def expect? (token : Token) (reading : Reading) : Option Reading :=
  if reading.head? = some token then some reading.drop else none

/-- The name of a tag; none if its handle is not known. -/
def tagName? (handle? : Option Text) (name : Text) (reading : Reading) : Option Text :=
  match handle? with
  | none => some name
  | some handle =>
    (reading.handles.find? fun entry => entry.1 == handle).map fun entry => entry.2 ++ name

/-- The tag before a node, if there is one. -/
def tag (reading : Reading) : Read (Option Text) :=
  match reading.head? with
  | some (.tag handle? name) =>
    (reading.tagName? handle? name).map fun found => (some found, reading.drop)
  | _ => some (none, reading)

def anchor (reading : Reading) : Option Text × Reading :=
  match reading.head? with
  | some (.anchor name) => (some name, reading.drop)
  | _ => (none, reading)

/-- The tag and the anchor before a node, in either order. -/
def properties (reading : Reading) : Read (Option Text × Option Text) :=
  match reading.anchor with
  | (some anchor, afterAnchor) =>
    afterAnchor.tag.map fun found => ((found.1, some anchor), found.2)
  | (none, _) =>
    reading.tag.map fun found =>
      let (anchor?, rest) := found.2.anchor
      ((found.1, anchor?), rest)

/-- Keeps a node under its anchor; an anchor may be used once. -/
def keep? (anchor? : Option Text) (node : Node) (reading : Reading) : Read Node :=
  match anchor? with
  | none => some (node, reading)
  | some anchor =>
    if reading.anchors.any fun entry => entry.1 == anchor then none
    else some (node, { reading with anchors := (anchor, node) :: reading.anchors })

/-- The node that an alias stands for. -/
def alias? (name : Text) (reading : Reading) : Read Node :=
  (reading.anchors.find? fun entry => entry.1 == name).map fun entry => (entry.2, reading.drop)

end Reading

mutual

/-- A node at a place; the fuel bounds the number of tokens. -/
def readNode : Nat → Place → Reading → Read Node
  | 0, _, _ => none
  | fuel + 1, place, reading =>
    match reading.head? with
    | some (.alias name) => reading.alias? name
    | _ =>
      match reading.properties with
      | none => none
      | some ((tag?, anchor?), reading) =>
        match readContent fuel place tag? reading with
        | some (node, rest) => rest.keep? anchor? node
        | none =>
          if (tag?.isSome || anchor?.isSome) && !startsContent place reading then
            reading.keep? anchor? (.scalar tag? [] true)
          else none

/-- The content of a node after its properties. -/
def readContent : Nat → Place → Option Text → Reading → Read Node
  | 0, _, _, _ => none
  | fuel + 1, place, tag?, reading =>
    match reading.head? with
    | some (.scalar text isPlain) => some (.scalar tag? text isPlain, reading.drop)
    | some .flowSequenceStart =>
      (readFlowItems fuel true reading.drop).map fun found =>
        (.sequence tag? found.1, found.2)
    | some .flowMappingStart =>
      (readFlowEntries fuel true reading.drop).map fun found =>
        (.mapping tag? found.1, found.2)
    | some .blockSequenceStart =>
      if place = .flow then none
      else
        (readItems fuel false reading.drop).map fun found => (.sequence tag? found.1, found.2)
    | some .blockMappingStart =>
      if place = .flow then none
      else (readEntries fuel reading.drop).map fun found => (.mapping tag? found.1, found.2)
    | some .blockEntry =>
      if place = .mappingValue then
        (readItems fuel true reading).map fun found => (.sequence tag? found.1, found.2)
      else none
    | _ => none

/-- Some content starts with the next token. -/
def startsContent (place : Place) (reading : Reading) : Bool :=
  match reading.head? with
  | some (.scalar _ _) | some .flowSequenceStart | some .flowMappingStart => true
  | some .blockSequenceStart | some .blockMappingStart => place != .flow
  | some .blockEntry => place == .mappingValue
  | _ => false

/-- A node, or the empty one where one of some tokens follows. -/
def readOptional : Nat → Place → List Token → Reading → Read Node
  | 0, _, _, _ => none
  | fuel + 1, place, ends, reading =>
    if reading.seesOne ends then some (.empty, reading) else readNode fuel place reading

/-- The items of a block sequence; without indentation another token than a dash
ends them. -/
def readItems : Nat → Bool → Reading → Read (List Node)
  | 0, _, _ => none
  | fuel + 1, isIndentless, reading =>
    if reading.head? = some .blockEntry then
      let ends : List Token :=
        if isIndentless then [.blockEntry, .key, .value, .blockEnd] else [.blockEntry, .blockEnd]
      match readOptional fuel .block ends reading.drop with
      | none => none
      | some (item, rest) =>
        (readItems fuel isIndentless rest).map fun found => (item :: found.1, found.2)
    else if isIndentless then some ([], reading)
    else (reading.expect? .blockEnd).map fun rest => ([], rest)

/-- The entries of a block mapping. -/
def readEntries : Nat → Reading → Read (List (Node × Node))
  | 0, _ => none
  | fuel + 1, reading =>
    if reading.seesOne [.key, .value] then
      let ends : List Token := [.key, .value, .blockEnd]
      let key :=
        if reading.head? = some .key then readOptional fuel .mappingValue ends reading.drop
        else some (.empty, reading)
      match key with
      | none => none
      | some (keyNode, afterKey) =>
        let value :=
          if afterKey.head? = some .value then
            readOptional fuel .mappingValue ends afterKey.drop
          else some (.empty, afterKey)
        match value with
        | none => none
        | some (valueNode, rest) =>
          (readEntries fuel rest).map fun found => ((keyNode, valueNode) :: found.1, found.2)
    else (reading.expect? .blockEnd).map fun rest => ([], rest)

/-- A key with its value inside brackets; the value may be missing. -/
def readPair : Nat → Token → Reading → Read (Node × Node)
  | 0, _, _ => none
  | fuel + 1, closing, reading =>
    match readOptional fuel .flow [.value, .flowEntry, closing] reading with
    | none => none
    | some (key, afterKey) =>
      if afterKey.head? = some .value then
        (readOptional fuel .flow [.flowEntry, closing] afterKey.drop).map fun found =>
          ((key, found.1), found.2)
      else some ((key, .empty), afterKey)

/-- The items of a bracketed sequence. -/
def readFlowItems : Nat → Bool → Reading → Read (List Node)
  | 0, _, _ => none
  | fuel + 1, isFirst, reading =>
    let closing : Token := .flowSequenceEnd
    if reading.head? = some closing then some ([], reading.drop)
    else
      match if isFirst then some reading else reading.expect? .flowEntry with
      | none => none
      | some next =>
        if next.head? = some closing then some ([], next.drop)
        else
          let item :=
            if next.head? = some .key then
              (readPair fuel closing next.drop).map fun found =>
                (Node.mapping none [found.1], found.2)
            else readNode fuel .flow next
          match item with
          | none => none
          | some (node, rest) =>
            (readFlowItems fuel false rest).map fun found => (node :: found.1, found.2)

/-- The entries of a braced mapping; a node without a key mark has no value. -/
def readFlowEntries : Nat → Bool → Reading → Read (List (Node × Node))
  | 0, _, _ => none
  | fuel + 1, isFirst, reading =>
    let closing : Token := .flowMappingEnd
    if reading.head? = some closing then some ([], reading.drop)
    else
      match if isFirst then some reading else reading.expect? .flowEntry with
      | none => none
      | some next =>
        if next.head? = some closing then some ([], next.drop)
        else
          let entry :=
            if next.head? = some .key then readPair fuel closing next.drop
            else (readNode fuel .flow next).map fun found => ((found.1, .empty), found.2)
          match entry with
          | none => none
          | some (pair, rest) =>
            (readFlowEntries fuel false rest).map fun found => (pair :: found.1, found.2)

end

/-- Past the marks that end a document. -/
def skipEnds : List Token → List Token
  | .documentEnd :: rest => skipEnds rest
  | tokens => tokens

/-- What the directives before a document say. -/
structure Prologue where
  hasVersion : Bool := false
  handles : List (Text × Text) := []

/-- Takes in a directive.  The version must be of the first kind, and a version or
a handle may be given once. -/
def Prologue.add? (prologue : Prologue) : Directive → Option Prologue
  | .version major =>
    if prologue.hasVersion || major != 1 then none else some { prologue with hasVersion := true }
  | .handle name beginning =>
    if prologue.handles.any fun entry => entry.1 == name then none
    else some { prologue with handles := (name, beginning) :: prologue.handles }
  | .other => some prologue

/-- The directives before a document, and the tokens after them. -/
def readDirectives (prologue : Prologue) : List Token → Option (Prologue × List Token)
  | .directive directive :: rest =>
    match prologue.add? directive with
    | none => none
    | some next => readDirectives next rest
  | tokens => some (prologue, tokens)

/-- The token belongs to the beginning of a document. -/
def isBeginning : Token → Bool
  | .directive _ | .documentStart => true
  | _ => false

/-- The token stands between documents. -/
def isBetween : Token → Bool
  | .directive _ | .documentStart | .documentEnd | .streamEnd => true
  | _ => false

/-- The node of a document's tokens, and that nothing but the end follows. -/
def readDocument (isExplicit : Bool) (prologue : Prologue) (tokens : List Token) : Option Node :=
  let reading : Reading :=
    { tokens := tokens, handles := prologue.handles ++ Tag.usualHandles }
  let found :=
    if isExplicit && reading.head?.any isBetween then some (Node.empty, reading)
    else readNode (8 * tokens.length + 8) .block reading
  match found with
  | none => none
  | some (node, rest) => if skipEnds rest.tokens = [.streamEnd] then some node else none

/-- The node of a stream: none if the stream is empty.  A stream may hold one
document only. -/
def readStream (tokens : List Token) : Option (Option Node) :=
  match tokens with
  | [.streamEnd] => some none
  | first :: _ =>
    if isBeginning first then
      match readDirectives {} tokens with
      | some (prologue, .documentStart :: rest) => (readDocument true prologue rest).map some
      | _ => none
    else (readDocument false {} tokens).map some
  | [] => none

end Yaml

end Scaffold
