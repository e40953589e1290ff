import Scaffold.Json.Reader
import Scaffold.Yaml.Scalar

/-!
# Cutting YAML into tokens

Indentation opens and closes block collections.  Whether a token begins a key is
only known when a colon follows it on the same line, so the place of each token
that may begin a key is kept, and the key is marked there afterwards.
-/

namespace Scaffold

namespace Yaml

/-- A token that may begin a key: its place among the tokens and in the text.
A required one must turn out to be a key. -/
structure PossibleKey where
  place : Nat
  isRequired : Bool
  index : Nat
  line : Nat
  column : Nat

/-- What has been cut so far. -/
structure Lexing where
  cursor : Cursor
  tokens : List Token := []
  /-- The depth of brackets and braces. -/
  depth : Nat := 0
  /-- The column of the innermost block collection; negative outside all. -/
  indent : Int := -1
  indents : List Int := []
  allowsKey : Bool := true
  keys : List (Nat × PossibleKey) := []

/-- A character of the name of an anchor. -/
def isNameChar (character : Char) : Bool :=
  character.isAlphanum || character == '-' || character == '_'

def isTagChar (character : Char) : Bool :=
  isNameChar character ||
    [';', '/', '?', ':', '@', '&', '=', '+', '$', ',', '.', '!', '~', '*', '(', ')', '[', ']',
      '%', Char.ofNat 39].contains character

namespace Tag

/-- The tag that leaves the kind of a node to its form; also the handle of local
tags. -/
def alone : Text := ['!']

/-- The handle of the tags of the standard. -/
def standardHandle : Text := ['!', '!']

/-- What the tags of the standard begin with. -/
def standardBeginning : Text := "tag:yaml.org,2002:"

/-- What the tags of handles begin with unless a directive says otherwise. -/
def usualHandles : List (Text × Text) :=
  [(alone, alone), (standardHandle, standardBeginning)]

/-- The handle at the beginning of a text: one exclamation mark before a blank,
or two with a name between them. -/
def handle? : Text → Option Text
  | '!' :: ' ' :: _ => some alone
  | '!' :: rest =>
    let name := rest.takeWhile isNameChar
    if (rest.drop name.length).head? = some '!' then some (alone ++ name ++ alone) else none
  | _ => none

end Tag

namespace Directive

/-- The text without the blanks it begins with. -/
def skipBlanks (text : Text) : Text :=
  text.dropWhile (· == ' ')

/-- Nothing but a comment follows. -/
def endsHere (text : Text) : Bool :=
  match text, skipBlanks text with
  | [], _ | ' ' :: _, [] | ' ' :: _, '#' :: _ => true
  | _, _ => false

/-- The directive with the version that a text gives. -/
def version? (text : Text) : Option Directive :=
  let major := text.takeWhile Text.isAsciiDigit
  match text.drop major.length with
  | '.' :: rest =>
    let minor := rest.takeWhile Text.isAsciiDigit
    if major.isEmpty || minor.isEmpty || !endsHere (rest.drop minor.length) then none
    else some (.version (Json.digitsValue major))
  | _ => none

/-- The directive with the handle that a text gives. -/
def handle? (text : Text) : Option Directive :=
  match Tag.handle? text with
  | none => none
  | some name =>
    let rest := text.drop name.length
    let beginning := (skipBlanks rest).takeWhile isTagChar
    if rest.head? ≠ some ' ' || beginning.isEmpty ||
        !endsHere ((skipBlanks rest).drop beginning.length) then none
    else some (.handle name beginning)

/-- The directive in a line, after its percent sign. -/
def ofLine? (line : Text) : Option Directive :=
  let name := line.takeWhile isNameChar
  let rest := line.drop name.length
  if name.isEmpty || !(rest.isEmpty || rest.head? = some ' ') then none
  else if name = "YAML" then version? (skipBlanks rest)
  else if name = "TAG" then handle? (skipBlanks rest)
  else some .other

end Directive

namespace Lexing

/-- The next token stands inside brackets or braces. -/
def inFlow (state : Lexing) : Bool :=
  state.depth != 0

def emit (token : Token) (state : Lexing) : Lexing :=
  { state with tokens := state.tokens ++ [token] }

/-- Adds a token and moves past its characters. -/
def take (count : Nat) (token : Token) (state : Lexing) : Lexing :=
  { state.emit token with cursor := state.cursor.advance count }

/-- Puts tokens before the one at a place. -/
def putBefore (place : Nat) (tokens : List Token) (state : Lexing) : Lexing :=
  { state with tokens := state.tokens.take place ++ tokens ++ state.tokens.drop place }

/-- Allows or forbids a key to begin next. -/
def allow (allowsKey : Bool) (state : Lexing) : Lexing :=
  { state with allowsKey := allowsKey }

/-- The possible key at the current depth. -/
def key? (state : Lexing) : Option PossibleKey :=
  (state.keys.find? fun entry => entry.1 == state.depth).map Prod.snd

/-- Drops the possible key at the current depth. -/
def dropKey (state : Lexing) : Lexing :=
  { state with keys := state.keys.filter fun entry => entry.1 != state.depth }

/-- Gives up the possible key at the current depth; a required one may not be
given up. -/
def forgetKey? (state : Lexing) : Option Lexing :=
  match state.key? with
  | some key => if key.isRequired then none else some state.dropKey
  | none => some state

/-- Gives up the keys for which no colon can follow any more. -/
def forgetStale? (state : Lexing) : Option Lexing :=
  let isStale (key : PossibleKey) : Bool :=
    key.line != state.cursor.line || key.index + 1024 < state.cursor.index
  if state.keys.any fun entry => isStale entry.2 && entry.2.isRequired then none
  else some { state with keys := state.keys.filter fun entry => !isStale entry.2 }

/-- Keeps the place of the next token, if it may begin a key. -/
def rememberKey? (state : Lexing) : Option Lexing :=
  if state.allowsKey then
    state.forgetKey?.map fun cleared =>
      let cursor := state.cursor
      let isRequired := !state.inFlow && state.indent == cursor.column
      { cleared with
        keys :=
          (state.depth,
            ⟨state.tokens.length, isRequired, cursor.index, cursor.line, cursor.column⟩) ::
            cleared.keys }
  else some state

/-- Closes the collections that are indented deeper than a column; the fuel
bounds their number. -/
def closeBlocks (column : Int) : Nat → Lexing → Lexing
  | 0, state => state
  | fuel + 1, state =>
    if column < state.indent then
      match state.indents with
      | [] => state
      | outer :: rest =>
        closeBlocks column fuel
          ({ state with indent := outer, indents := rest }.emit .blockEnd)
    else state

/-- Closes the collections that are indented deeper than a column, unless the
next token stands inside brackets. -/
def unwind (column : Int) (state : Lexing) : Lexing :=
  if state.inFlow then state else closeBlocks column (state.indents.length + 1) state

/-- Opens a collection at a column if it is indented deeper than the present
one, and puts its token at a place. -/
def openBlock (column : Int) (place : Nat) (token : Token) (state : Lexing) : Lexing :=
  if state.indent < column then
    { state with indent := column, indents := state.indent :: state.indents }.putBefore place
      [token]
  else state

/-- Opens a collection at the current column. -/
def openHere (token : Token) (state : Lexing) : Lexing :=
  state.openBlock state.cursor.column state.tokens.length token

/-- Moves past blanks, comments and line breaks; outside brackets a line break
allows a key. -/
def skipBetween : Nat → Lexing → Lexing
  | 0, state => state
  | fuel + 1, state =>
    let cursor := state.cursor.skipBlanks
    let cursor :=
      if cursor.startsWith '#' then (cursor.span fun character => !isBreak character).2
      else cursor
    match cursor.lineBreak with
    | ([], _) => { state with cursor := cursor }
    | (_, after) =>
      skipBetween fuel
        { state with cursor := after, allowsKey := state.allowsKey || !state.inFlow }

def documentMark? (token : Token) (state : Lexing) : Option Lexing :=
  (state.unwind (-1)).forgetKey?.map fun cleared => (cleared.allow false).take 3 token

def openFlow? (token : Token) (state : Lexing) : Option Lexing :=
  state.rememberKey?.map fun kept =>
    ({ kept with depth := kept.depth + 1 }.allow true).take 1 token

def closeFlow? (token : Token) (state : Lexing) : Option Lexing :=
  if state.inFlow then
    state.forgetKey?.map fun cleared =>
      ({ cleared with depth := cleared.depth - 1 }.allow false).take 1 token
  else none

/-- A comma between the items of a bracket. -/
def flowEntry? (state : Lexing) : Option Lexing :=
  state.forgetKey?.map fun cleared => (cleared.allow true).take 1 .flowEntry

def blockEntry? (state : Lexing) : Option Lexing :=
  if !state.inFlow && !state.allowsKey then none
  else
    let opened := if state.inFlow then state else state.openHere .blockSequenceStart
    opened.forgetKey?.map fun cleared => (cleared.allow true).take 1 .blockEntry

def explicitKey? (state : Lexing) : Option Lexing :=
  if !state.inFlow && !state.allowsKey then none
  else
    let opened := if state.inFlow then state else state.openHere .blockMappingStart
    opened.forgetKey?.map fun cleared => (cleared.allow (!state.inFlow)).take 1 .key

/-- A colon: it makes a key of the token that may be one, or stands alone. -/
def value? (state : Lexing) : Option Lexing :=
  match state.key? with
  | some key =>
    let marked := state.dropKey.putBefore key.place [.key]
    let opened :=
      if state.inFlow then marked else marked.openBlock key.column key.place .blockMappingStart
    some ((opened.allow false).take 1 .value)
  | none =>
    if !state.inFlow && !state.allowsKey then none
    else
      let opened := if state.inFlow then state else state.openHere .blockMappingStart
      opened.forgetKey?.map fun cleared => (cleared.allow (!state.inFlow)).take 1 .value

/-- A token that may begin a key and is not followed by another one. -/
def plainToken? (scan : Cursor → Option (Token × Cursor)) (state : Lexing) : Option Lexing :=
  match state.rememberKey? with
  | none => none
  | some kept =>
    (scan state.cursor).map fun found => { (kept.allow false).emit found.1 with cursor := found.2 }

/-- An anchor or an alias, from its mark on. -/
def nameToken? (token : Text → Token) (cursor : Cursor) : Option (Token × Cursor) :=
  let (name, after) := cursor.next.span isNameChar
  let mayFollow :=
    endsWord (after.peek? 0) ||
      (after.peek? 0).any fun character =>
        ['?', ':', ',', ']', '\x7d', '%', '@', Char.ofNat 96].contains character
  if name.isEmpty || !mayFollow then none else some (token name, after)

/-- A tag from its exclamation mark on: in full, alone, or with a handle. -/
def tagToken? (cursor : Cursor) : Option (Token × Cursor) :=
  let finish (token : Token) (after : Cursor) : Option (Token × Cursor) :=
    if endsWord (after.peek? 0) && !after.startsWith '\t' then some (token, after) else none
  match cursor.rest.drop 1 with
  | '<' :: _ =>
    let (name, after) := (cursor.advance 2).span isTagChar
    if name.isEmpty || !after.startsWith '>' then none else finish (.tag none name) after.next
  | rest =>
    if endsWord rest.head? then finish (.tag none Tag.alone) cursor.next
    else
      let hasHandle := (rest.takeWhile fun character => !endsWord (some character)).contains '!'
      match if hasHandle then Tag.handle? cursor.rest else some Tag.alone with
      | none => none
      | some handle =>
        let (name, after) := (cursor.advance handle.length).span isTagChar
        if name.isEmpty then none else finish (.tag (some handle) name) after

/-- A directive, from its percent sign on. -/
def directive? (state : Lexing) : Option Lexing :=
  let line := state.cursor.rest.takeWhile fun character => !isBreak character
  match Directive.ofLine? (line.drop 1), (state.unwind (-1)).forgetKey? with
  | some directive, some cleared => some ((cleared.allow false).take line.length (.directive directive))
  | _, _ => none

/-- A scalar behind the bar or the angle bracket. -/
def blockToken? (state : Lexing) : Option Lexing :=
  state.forgetKey?.bind fun cleared =>
    (blockScalar state.indent state.cursor).map fun found =>
      { (cleared.allow true).emit (.scalar found.1 false) with cursor := found.2 }

/-- A plain scalar; a line break behind it allows a key. -/
def plainScalar? (state : Lexing) : Option Lexing :=
  state.rememberKey?.map fun kept =>
    let (text, brokeLine, after) :=
      plainWords state.inFlow (state.indent + 1) state.cursor.bound [] false state.cursor
    { (kept.allow brokeLine).emit (.scalar text true) with cursor := after }

/-- The characters that cannot begin a plain scalar. -/
def isIndicator (character : Char) : Bool :=
  ['-', '?', ':', ',', '[', ']', '\x7b', '\x7d', '#', '&', '*', '!', '|', '>', Char.ofNat 39,
    '"', '%', '@', Char.ofNat 96].contains character

/-- A plain scalar begins with a character that is followed by another one. -/
def startsPlain (inFlow : Bool) (character : Char) (following : Option Char) : Bool :=
  !(endsWord (some character) || isIndicator character) ||
    (!endsWord following &&
      (character == '-' || (!inFlow && (character == '?' || character == ':'))))

/-- The token that begins with a character. -/
def token? (character : Char) (state : Lexing) : Option Lexing :=
  let cursor := state.cursor
  let atWordEnd := endsWord (cursor.peek? 1)
  let inFlow := state.inFlow
  if cursor.column = 0 ∧ character = '%' then state.directive?
  else if cursor.column = 0 ∧ cursor.standsAlone '-' then state.documentMark? .documentStart
  else if cursor.column = 0 ∧ cursor.standsAlone '.' then state.documentMark? .documentEnd
  else if character = '[' then state.openFlow? .flowSequenceStart
  else if character = '\x7b' then state.openFlow? .flowMappingStart
  else if character = ']' then state.closeFlow? .flowSequenceEnd
  else if character = '\x7d' then state.closeFlow? .flowMappingEnd
  else if character = ',' then state.flowEntry?
  else if character = '-' ∧ atWordEnd then state.blockEntry?
  else if character = '?' ∧ (inFlow ∨ atWordEnd) then state.explicitKey?
  else if character = ':' ∧ (inFlow ∨ atWordEnd) then state.value?
  else if character = '*' then state.plainToken? (nameToken? .alias)
  else if character = '&' then state.plainToken? (nameToken? .anchor)
  else if character = '!' then state.plainToken? tagToken?
  else if (character = '|' ∨ character = '>') ∧ !inFlow then state.blockToken?
  else if character = Char.ofNat 39 ∨ character = '"' then
    state.plainToken? fun start =>
      (quotedScalar character start).map fun found => (.scalar found.1 false, found.2)
  else if startsPlain inFlow character (cursor.peek? 1) then state.plainScalar?
  else none

/-- Cuts the next token, or ends the stream. -/
def step? (state : Lexing) : Option Lexing :=
  (skipBetween state.cursor.bound state).forgetStale?.bind fun current =>
    let closed := current.unwind current.cursor.column
    match current.cursor.peek? 0 with
    | none => (closed.unwind (-1)).forgetKey?.map (emit .streamEnd)
    | some character => closed.token? character

/-- Cuts all tokens; the fuel bounds their number. -/
def run? : Nat → Lexing → Option (List Token)
  | 0, _ => none
  | fuel + 1, state =>
    match state.step? with
    | none => none
    | some next =>
      if next.tokens.getLast? = some .streamEnd then some next.tokens else run? fuel next

end Lexing

/-- The characters that may stand in a stream. -/
def isAllowed (character : Char) : Bool :=
  let code := character.toNat
  code == 9 || code == 10 || code == 13 || (32 ≤ code && code ≤ 126) || code == 0x85 ||
    (0xA0 ≤ code && code ≤ 0xD7FF) || (0xE000 ≤ code && code ≤ 0xFFFD) || 0x10000 ≤ code

/-- The tokens of a stream, unless it is malformed.  A byte order mark at the
beginning is skipped. -/
def tokens? (text : Text) : Option (List Token) :=
  if text.all isAllowed then
    let start : Cursor := { rest := text }
    let first := if start.startsWith (Char.ofNat 0xFEFF) then start.next else start
    Lexing.run? (2 * text.length + 2) { cursor := first }
  else none

end Yaml

end Scaffold
