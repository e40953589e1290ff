import Scaffold.Sorting
import Scaffold.Yaml.Resolution
import Scaffold.Yaml.Token

/-!
# Writing YAML

Collections are written in block style with sorted keys.  A text is written
plain where it would be read back as the same text, else between single quotes,
and between double quotes where it holds characters outside printable ASCII.
Long texts are folded at blanks.
-/

namespace Scaffold

namespace Yaml

/-- The column after which a line is folded. -/
def bestWidth : Nat := 80

/-- A line break and the blanks of an indentation. -/
def newLine (indent : Nat) : Text :=
  '\n' :: Text.times indent ' '

/-- The way a text is written. -/
inductive Style where
  | plain
  | single
  | double
  deriving Repr, DecidableEq

/-- The characters that a plain text may not begin with. -/
def isLeadingMark (character : Char) : Bool :=
  ['#', ',', '[', ']', '\x7b', '\x7d', '&', '*', '!', '|', '>', Char.ofNat 39, '"', '%', '@',
    Char.ofNat 96].contains character

/-- A mark at the beginning of a text that cannot be plain. -/
def hasLeadingMark (text : Text) : Bool :=
  match text with
  | [] => false
  | first :: rest =>
    text.take 3 == ['-', '-', '-'] || text.take 3 == ['.', '.', '.'] || isLeadingMark first ||
      ((first == '?' || first == ':' || first == '-') && endsWord rest.head?)

/-- A mark inside a text that cannot be plain: a colon at the end of a word or a
number sign at the beginning of one. -/
def hasInnerMark : Text → Bool
  | previous :: character :: rest =>
    (character == ':' && endsWord rest.head?) ||
      (character == '#' && endsWord (some previous)) || hasInnerMark (character :: rest)
  | _ => false

/-- A printable character of ASCII or a line feed. -/
def isOrdinary (character : Char) : Bool :=
  character == '\n' || (32 ≤ character.toNat && character.toNat ≤ 126)

/-- A character is directly followed by another one somewhere. -/
def hasPair (first second : Char) : Text → Bool
  | character :: next :: rest =>
    (character == first && next == second) || hasPair first second (next :: rest)
  | _ => false

/-- The text begins or ends with a blank or a line feed. -/
def hasLooseEnd (text : Text) : Bool :=
  let isLoose (character : Char) := character == ' ' || character == '\n'
  text.head?.any isLoose || text.getLast?.any isLoose

/-- The text can be written plain. -/
def allowsPlain (text : Text) : Bool :=
  isPlainText text && text.all isOrdinary && !text.contains '\n' && !hasLooseEnd text &&
    !hasLeadingMark text && !hasInnerMark text

/-- The text can be written between single quotes. -/
def allowsSingle (text : Text) : Bool :=
  text.all isOrdinary && !hasPair ' ' '\n' text && !hasPair '\n' ' ' text

def styleOf (text : Text) : Style :=
  if allowsPlain text then .plain else if allowsSingle text then .single else .double

/-- The runs of a text: characters of one of three classes that stand
together. -/
inductive Run where
  | word (text : Text)
  | blanks (count : Nat)
  | breaks (count : Nat)
  deriving Repr, DecidableEq

def runOf (character : Char) : Run :=
  if character = ' ' then .blanks 1 else if character = '\n' then .breaks 1
  else .word [character]

/-- Puts a run before others; runs of one class are joined. -/
def Run.before : Run → List Run → List Run
  | .word left, .word right :: rest => .word (left ++ right) :: rest
  | .blanks left, .blanks right :: rest => .blanks (left + right) :: rest
  | .breaks left, .breaks right :: rest => .breaks (left + right) :: rest
  | run, rest => run :: rest

def runs : Text → List Run
  | [] => []
  | character :: rest => (runOf character).before (runs rest)

/-- Writes runs from a column on.  A single blank behind the best width becomes
a line break, except at either end of the text. -/
def writeRuns (indent : Nat) : Bool → Nat → List Run → Text
  | _, _, [] => []
  | _, column, .word text :: rest => text ++ writeRuns indent false (column + text.length) rest
  | isFirst, column, .blanks count :: rest =>
    if count = 1 ∧ bestWidth < column ∧ !isFirst ∧ !rest.isEmpty then
      newLine indent ++ writeRuns indent false indent rest
    else Text.times count ' ' ++ writeRuns indent false (column + count) rest
  | _, _, .breaks count :: rest =>
    Text.times count '\n' ++ newLine indent ++ writeRuns indent false indent rest

/-- A text between single quotes, in which single quotes are doubled. -/
def writeSingle (indent column : Nat) (text : Text) : Text :=
  let apostrophe := Char.ofNat 39
  let doubled := Text.replaceChar apostrophe [apostrophe, apostrophe] text
  [apostrophe] ++ writeRuns indent true (column + 1) (runs doubled) ++ [apostrophe]

/-- The letters of escapes, by code point. -/
def escapeLetters : List (Nat × Char) :=
  [(0, '0'), (7, 'a'), (8, 'b'), (9, 't'), (10, 'n'), (11, 'v'), (12, 'f'), (13, 'r'),
    (27, 'e'), (34, '"'), (92, '\\'), (0x85, 'N'), (0xA0, '_'), (0x2028, 'L'), (0x2029, 'P')]

/-- Hexadecimal digits with capital letters. -/
def capitalHex (width code : Nat) : Text :=
  (Text.hex width code).map Char.toUpper

/-- The escape of a character between double quotes, if it needs one. -/
def doubleEscape? (character : Char) : Option Text :=
  let code := character.toNat
  match escapeLetters.find? fun entry => entry.1 == code with
  | some entry => some ['\\', entry.2]
  | none =>
    if 32 ≤ code ∧ code ≤ 126 then none
    else if code ≤ 0xFF then some ("\\x" ++ capitalHex 2 code)
    else if code ≤ 0xFFFF then some ("\\u" ++ capitalHex 4 code)
    else some ("\\U" ++ capitalHex 8 code)

/-- A folded line between double quotes; a blank at the beginning of the next
line is escaped. -/
def foldDouble (indent : Nat) (next : Option Char) : Text :=
  ['\\'] ++ newLine indent ++ if next = some ' ' then ['\\'] else []

def foldColumn (indent : Nat) (next : Option Char) : Nat :=
  if next = some ' ' then indent + 1 else indent

/-- Writes the characters between double quotes from a column on, where some
characters are pending, and tells the first character from the others. -/
def writeDoubleFrom (indent : Nat) : Bool → Nat → Text → Text → Text
  | _, _, pending, [] => pending.reverse
  | isFirst, column, pending, character :: rest =>
    let isInner := !isFirst && !rest.isEmpty
    match doubleEscape? character with
    | some escaped =>
      let reached := column + pending.length + escaped.length
      if isInner && bestWidth < reached - 1 then
        pending.reverse ++ escaped ++ foldDouble indent rest.head? ++
          writeDoubleFrom indent false (foldColumn indent rest.head?) [] rest
      else pending.reverse ++ escaped ++ writeDoubleFrom indent false reached [] rest
    | none =>
      if isInner && (character == ' ' || pending.isEmpty) &&
          bestWidth < column + pending.length then
        pending.reverse ++ foldDouble indent (some character) ++
          writeDoubleFrom indent false (foldColumn indent (some character)) [character] rest
      else writeDoubleFrom indent false column (character :: pending) rest

def writeDouble (indent column : Nat) (text : Text) : Text :=
  ['"'] ++ writeDoubleFrom indent true (column + 1) [] text ++ ['"']

/-- A text from a column on, with an indentation for further lines. -/
def writeText (indent column : Nat) (text : Text) : Text :=
  match styleOf text with
  | .plain => writeRuns indent true column (runs text)
  | .single => writeSingle indent column text
  | .double => writeDouble indent column text

/-- A number with a point; one with an exponent gets a fraction. -/
def writeDecimal (shown : Text) : Text :=
  if shown.contains '.' then shown
  else shown.flatMap fun character => if character = 'e' then ".0e" else [character]

def writeOther (shown : Text) : Text :=
  if shown = "nan" then ".nan"
  else if shown = "inf" then ".inf"
  else if shown = "-inf" then "-.inf"
  else shown

mutual

/-- The value with the entries of all mappings in ascending order of their
keys. -/
def sortKeys : Value → Value
  | .list items => .list (sortItems items)
  | .mapping entries =>
    .mapping (Sorting.sort (fun left right => Text.order left.1.shown right.1.shown)
      (sortEntries entries))
  | value => value

/-- Several values with sorted keys. -/
def sortItems : List Value → List Value
  | [] => []
  | item :: rest => sortKeys item :: sortItems rest

/-- Several entries with sorted keys in their values. -/
def sortEntries : List (Key × Value) → List (Key × Value)
  | [] => []
  | (key, value) :: rest => (key, sortKeys value) :: sortEntries rest

end

def writeKey (key : Key) : Text :=
  match key with
  | .name text => writeText 0 0 text
  | .other shown => shown

mutual

/-- A value behind a colon or a dash, which ends at a column.  The collection
around it has an indentation, and a sequence behind a colon is not indented
further. -/
def writeValue (indent column : Nat) (isEntry : Bool) : Value → Text
  | .null => " null\n"
  | .bool value => if value then " true\n" else " false\n"
  | .integer value => [' '] ++ Value.shownInteger value ++ ['\n']
  | .decimal isNegative digits exponent =>
    [' '] ++ writeDecimal (Value.shownDecimal isNegative digits exponent) ++ ['\n']
  | .scalar shown => [' '] ++ writeOther shown ++ ['\n']
  | .text text => [' '] ++ writeText (indent + 2) (column + 1) text ++ ['\n']
  | .list [] => " []\n"
  | .list (item :: rest) =>
    if isEntry then '\n' :: writeItems indent (item :: rest)
    else [' '] ++ (writeItems (indent + 2) (item :: rest)).drop (indent + 2)
  | .mapping [] => " \x7b\x7d\n"
  | .mapping (entry :: rest) =>
    if isEntry then '\n' :: writeEntries (indent + 2) (entry :: rest)
    else [' '] ++ (writeEntries (indent + 2) (entry :: rest)).drop (indent + 2)

/-- The items of a sequence at an indentation. -/
def writeItems (indent : Nat) : List Value → Text
  | [] => []
  | item :: rest =>
    Text.times indent ' ' ++ ['-'] ++ writeValue indent (indent + 1) false item ++
      writeItems indent rest

/-- The entries of a mapping at an indentation. -/
def writeEntries (indent : Nat) : List (Key × Value) → Text
  | [] => []
  | (key, value) :: rest =>
    let shownKey := writeKey key
    Text.times indent ' ' ++ shownKey ++ [':'] ++
      writeValue indent (indent + shownKey.length + 1) true value ++ writeEntries indent rest

end

/-- The text of a stream that holds a mapping. -/
def write (entries : List (Key × Value)) : Text :=
  match sortKeys (.mapping entries) with
  | .mapping sorted => writeEntries 0 sorted
  | _ => []

end Yaml

end Scaffold
