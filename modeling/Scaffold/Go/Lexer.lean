import Scaffold.Go.Token
import Scaffold.Text.Blank
import Scaffold.Text.Word

/-!
# Cutting Go source into tokens

The source is cut greedily into pieces, each of which is a blank, a comment or
the text of a token.  A reader answers with what follows the longest text it
accepts.  Nothing is dropped: the pieces put together are the source.
-/

namespace Scaffold

namespace Go

/-- Answers with what follows an accepted beginning, if there is one. -/
abbrev Reader := Text → Option Text

namespace Reader

def one (accepts : Char → Bool) : Reader
  | [] => none
  | character :: rest => if accepts character then some rest else none

def oneOf (characters : List Char) : Reader :=
  one characters.contains

def andThen (first second : Reader) : Reader := fun text =>
  (first text).bind second

/-- The readers one after the other. -/
def sequence (readers : List Reader) : Reader := fun text =>
  readers.foldl (fun rest reader => rest.bind reader) (some text)

/-- The reader if it accepts, else nothing. -/
def maybe (reader : Reader) : Reader := fun text =>
  some ((reader text).getD text)

/-- Further digits, each of which may have a low line before it. -/
def moreDigits (accepts : Char → Bool) : Text → Text
  | '_' :: digit :: rest =>
    if accepts digit then moreDigits accepts rest else '_' :: digit :: rest
  | digit :: rest => if accepts digit then moreDigits accepts rest else digit :: rest
  | [] => []

/-- Digits, between which single low lines may stand. -/
def digits (accepts : Char → Bool) : Reader := fun text =>
  (one accepts text).map (moreDigits accepts)

/-- A number of characters of a class. -/
def exactly (count : Nat) (accepts : Char → Bool) : Reader :=
  sequence (List.replicate count (one accepts))

/-- Of several readers the one that accepts most. -/
def longest (readers : List Reader) : Reader := fun text =>
  (readers.filterMap fun reader => reader text).foldl
    (fun best rest =>
      match best with
      | none => some rest
      | some shortest => if rest.length < shortest.length then some rest else some shortest)
    none

end Reader

open Reader

def apostrophe : Char := Char.ofNat 39

def backQuote : Char := Char.ofNat 96

def isBinary (character : Char) : Bool :=
  character == '0' || character == '1'

def isOctal (character : Char) : Bool :=
  '0'.toNat ≤ character.toNat && character.toNat ≤ '7'.toNat

def isDecimal (character : Char) : Bool :=
  Text.isAsciiDigit character

def isHexadecimal (character : Char) : Bool :=
  isDecimal character || ('a'.toNat ≤ character.toNat && character.toNat ≤ 'f'.toNat) ||
    ('A'.toNat ≤ character.toNat && character.toNat ≤ 'F'.toNat)

/-- An exponent after one of the given letters. -/
def exponent (letters : List Char) : Reader :=
  sequence [oneOf letters, maybe (oneOf ['+', '-']), digits isDecimal]

/-- Integers: decimal, octal, hexadecimal and binary ones. -/
def integer : Reader :=
  longest
    [oneOf ['0'],
      andThen (one fun digit => isDecimal digit && digit != '0')
        (maybe (andThen (maybe (oneOf ['_'])) (digits isDecimal))),
      sequence [oneOf ['0'], maybe (oneOf ['o', 'O']), maybe (oneOf ['_']), digits isOctal],
      sequence [oneOf ['0'], oneOf ['x', 'X'], maybe (oneOf ['_']), digits isHexadecimal],
      sequence [oneOf ['0'], oneOf ['b', 'B'], maybe (oneOf ['_']), digits isBinary]]

/-- Floating-point numbers with a decimal or a hexadecimal mantissa. -/
def floating : Reader :=
  let point := oneOf ['.']
  let decimalExponent := exponent ['e', 'E']
  let hexadecimalStart := andThen (oneOf ['0']) (oneOf ['x', 'X'])
  let hexadecimalExponent := exponent ['p', 'P']
  longest
    [sequence [digits isDecimal, point, maybe (digits isDecimal), maybe decimalExponent],
      sequence [digits isDecimal, decimalExponent],
      sequence [point, digits isDecimal, maybe decimalExponent],
      sequence [hexadecimalStart, maybe (oneOf ['_']), digits isHexadecimal, point,
        maybe (digits isHexadecimal), hexadecimalExponent],
      sequence [hexadecimalStart, maybe (oneOf ['_']), digits isHexadecimal, hexadecimalExponent],
      sequence [hexadecimalStart, point, digits isHexadecimal, hexadecimalExponent]]

/-- Numbers, imaginary ones included. -/
def number : Reader :=
  let imaginary (reader : Reader) := andThen reader (oneOf ['i'])
  longest [integer, floating, imaginary integer, imaginary floating,
    imaginary (digits isDecimal)]

/-- What may follow a backslash between double quotes. -/
def stringEscape : Reader :=
  longest
    [one fun character => character != 'x' && character != 'u' && character != 'U',
      sequence [oneOf ['x'], one isHexadecimal, one isHexadecimal],
      andThen (oneOf ['u']) (exactly 4 isHexadecimal),
      andThen (oneOf ['U']) (exactly 8 isHexadecimal)]

/-- What may follow a backslash in a character literal. -/
def characterEscape : Reader :=
  longest
    [oneOf ['a', 'b', 'f', 'n', 'r', 't', 'v', '\\', apostrophe, '"'],
      exactly 3 isOctal,
      andThen (oneOf ['x']) (exactly 2 isHexadecimal),
      andThen (oneOf ['u']) (exactly 4 isHexadecimal),
      andThen (oneOf ['U']) (exactly 8 isHexadecimal)]

/-- The rest of a string after its opening double quote; the fuel bounds the
number of characters. -/
def interpretedRest : Nat → Reader
  | 0, _ => none
  | _ + 1, [] => none
  | fuel + 1, character :: rest =>
    if character = '"' then some rest
    else if character = '\n' then none
    else if character = '\\' then (stringEscape rest).bind (interpretedRest fuel)
    else interpretedRest fuel rest

/-- The rest of a raw string after its opening back quote. -/
def rawRest : Reader
  | [] => none
  | character :: rest => if character = backQuote then some rest else rawRest rest

/-- The rest of a character literal after its opening apostrophe. -/
def characterRest : Reader :=
  andThen
    (longest [one fun character => character != apostrophe && character != '\\',
      andThen (oneOf ['\\']) characterEscape])
    (oneOf [apostrophe])

/-- The rest of a block comment after its opening. -/
def blockCommentRest : Reader
  | [] => none
  | '*' :: '/' :: rest => some rest
  | _ :: rest => blockCommentRest rest

/-- The letter that may begin a name. -/
def startsName (character : Char) : Bool :=
  Text.isLetter character || character == '_'

def continuesName (character : Char) : Bool :=
  startsName character || Text.isDigit character

/-- A piece of source: what separates tokens, or the text of a token. -/
inductive Piece where
  | trivia (trivia : Trivia)
  | lexeme (terminal : Terminal) (text : Text)
  deriving Repr, DecidableEq

namespace Piece

def text : Piece → Text
  | trivia separator => separator.text
  | lexeme _ spelling => spelling

end Piece

/-- The beginning of a text up to what a reader left over. -/
def upTo (text rest : Text) : Text :=
  text.take (text.length - rest.length)

/-- The lexeme that a reader finds. -/
def lexeme? (terminal : Terminal) (reader : Reader) (text : Text) : Option Piece :=
  (reader text).map fun rest => .lexeme terminal (upTo text rest)

/-- The mark with the longest spelling. -/
def mark? (text : Text) : Option Piece :=
  (operators.find? fun entry => entry.1.isPrefixOf text).map fun entry =>
    .lexeme (.operator entry.2) entry.1

/-- The piece that a text begins with. -/
def piece? (text : Text) : Option Piece :=
  match text with
  | [] => none
  | '/' :: '/' :: _ => some (.trivia (.comment (text.takeWhile (· ≠ '\n'))))
  | '/' :: '*' :: rest =>
    (blockCommentRest rest).map fun after => .trivia (.comment (upTo text after))
  | character :: rest =>
    if Text.isSpace character then some (.trivia (.blank (text.takeWhile Text.isSpace)))
    else if startsName character then
      let word := text.takeWhile continuesName
      some (.lexeme (wordTerminal word) word)
    else if isDecimal character || (character == '.' && (rest.head?.any isDecimal)) then
      lexeme? .number number text
    else if character = '"' then
      lexeme? .interpreted (andThen (oneOf ['"']) (interpretedRest text.length)) text
    else if character = backQuote then
      lexeme? .raw (andThen (oneOf [backQuote]) rawRest) text
    else if character = apostrophe then
      lexeme? .character (andThen (oneOf [apostrophe]) characterRest) text
    else mark? text

/-- The pieces of a text, unless some character begins no piece; the fuel bounds
their number. -/
def pieces? : Nat → Text → Option (List Piece)
  | _, [] => some []
  | 0, _ :: _ => none
  | fuel + 1, text =>
    match piece? text with
    | none => none
    | some piece => (pieces? fuel (text.drop piece.text.length)).map (piece :: ·)

/-- Gives each lexeme the trivia before it and its position; the last token
stands for the end. -/
def assemble : Nat → List Trivia → List Piece → List Token
  | position, lead, [] => [⟨lead, .finish, [], position⟩]
  | position, lead, .trivia trivia :: rest =>
    assemble (position + trivia.text.length) (lead ++ [trivia]) rest
  | position, lead, .lexeme terminal text :: rest =>
    ⟨lead, terminal, text, position⟩ :: assemble (position + text.length) [] rest

/-- The byte order mark, which is skipped where a source begins with it. -/
def byteOrderMark : Char := Char.ofNat 0xFEFF

/-- The tokens of a source, unless it cannot be cut into tokens. -/
def tokens? (source : Text) : Option (List Token) :=
  match source with
  | [] => some (assemble 0 [] [])
  | character :: rest =>
    if character = byteOrderMark then
      (pieces? rest.length rest).map (assemble 1 [.blank [character]])
    else (pieces? source.length source).map (assemble 0 [])

end Go

end Scaffold
