import Scaffold.Text.Basic

/-!
# Tokens of YAML

Block structure is shown by tokens that open and close collections.  A cursor
holds the text that is still to be read, and where it stands.
-/

namespace Scaffold

namespace Yaml

/-- A directive before a document. -/
inductive Directive where
  /-- The major version of the format. -/
  | version (major : Nat)
  /-- What the tags of a handle begin with. -/
  | handle (name beginning : Text)
  | other
  deriving Repr, DecidableEq

/-- A token of a YAML stream. -/
inductive Token where
  | directive (directive : Directive)
  | documentStart
  | documentEnd
  | streamEnd
  | blockSequenceStart
  | blockMappingStart
  | blockEnd
  | flowSequenceStart
  | flowSequenceEnd
  | flowMappingStart
  | flowMappingEnd
  | blockEntry
  | flowEntry
  | key
  | value
  | alias (name : Text)
  | anchor (name : Text)
  /-- A tag: a handle, unless it is written in full, and what follows it. -/
  | tag (handle? : Option Text) (name : Text)
  /-- A scalar; plain ones stand without quotes or indicators. -/
  | scalar (text : Text) (isPlain : Bool)
  deriving Repr, DecidableEq

/-- The characters that end a line. -/
def isBreak (character : Char) : Bool :=
  let code := character.toNat
  code == 10 || code == 13 || code == 0x85 || code == 0x2028 || code == 0x2029

def endsLine : Option Char → Bool
  | none => true
  | some character => isBreak character

/-- A word ends here: at a blank, a tab, the end of a line or the end of all. -/
def endsWord : Option Char → Bool
  | none => true
  | some character => character == ' ' || character == '\t' || isBreak character

/-- The text still to be read, and where it stands. -/
structure Cursor where
  rest : Text
  index : Nat := 0
  line : Nat := 0
  column : Nat := 0
  deriving Repr, DecidableEq

namespace Cursor

/-- The character some places ahead. -/
def peek? (cursor : Cursor) (ahead : Nat) : Option Char :=
  cursor.rest[ahead]?

/-- The text begins here with a character. -/
def startsWith (cursor : Cursor) (character : Char) : Bool :=
  cursor.rest.head? == some character

def next (cursor : Cursor) : Cursor :=
  match cursor.rest with
  | [] => cursor
  | character :: rest =>
    if isBreak character && !(character == '\r' && rest.head? == some '\n') then
      ⟨rest, cursor.index + 1, cursor.line + 1, 0⟩
    else if character.toNat = 0xFEFF then ⟨rest, cursor.index + 1, cursor.line, cursor.column⟩
    else ⟨rest, cursor.index + 1, cursor.line, cursor.column + 1⟩

def advance : Nat → Cursor → Cursor
  | 0, cursor => cursor
  | count + 1, cursor => advance count cursor.next

/-- The characters of a class that stand here, and what follows them. -/
def span (accepts : Char → Bool) (cursor : Cursor) : Text × Cursor :=
  let found := cursor.rest.takeWhile accepts
  (found, cursor.advance found.length)

/-- Past the blanks that stand here. -/
def skipBlanks (cursor : Cursor) : Cursor :=
  (cursor.span (· == ' ')).2

/-- Reads the end of a line, if one stands here. -/
def lineBreak (cursor : Cursor) : Text × Cursor :=
  match cursor.rest with
  | '\r' :: '\n' :: _ => (['\n'], cursor.advance 2)
  | character :: _ =>
    if isBreak character then
      ([if character.toNat < 0x100 then '\n' else character], cursor.next)
    else ([], cursor)
  | [] => ([], cursor)

/-- A mark of three characters that stands alone at the beginning of a line. -/
def standsAlone (cursor : Cursor) (mark : Char) : Bool :=
  cursor.rest.take 3 == [mark, mark, mark] && endsWord (cursor.peek? 3)

/-- The end or the beginning of a document stands here. -/
def atDocumentMark (cursor : Cursor) : Bool :=
  cursor.standsAlone '-' || cursor.standsAlone '.'

/-- A bound on the number of steps that the text still allows. -/
def bound (cursor : Cursor) : Nat :=
  cursor.rest.length + 1

end Cursor

end Yaml

end Scaffold
