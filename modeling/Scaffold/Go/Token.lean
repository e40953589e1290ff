import Scaffold.Text.Basic

/-!
# Tokens of Go source

A token carries the blanks and comments that stand before it, so the tokens of
a file, the last of which stands for its end, hold the whole source.  Blanks and
comments separate tokens and otherwise only matter through the line breaks
among the blanks.
-/

namespace Scaffold

namespace Go

/-- The reserved words. -/
inductive Keyword where
  | breakWord | caseWord | chanWord | constWord | continueWord | defaultWord | deferWord
  | elseWord | fallthroughWord | forWord | funcWord | goWord | gotoWord | ifWord | importWord
  | interfaceWord | mapWord | packageWord | rangeWord | returnWord | selectWord | structWord
  | switchWord | typeWord | varWord
  deriving Repr, DecidableEq

/-- The operators and punctuation marks. -/
inductive Operator where
  | plus | minus | star | slash | percent | ampersand | bar | caret | shiftLeft | shiftRight
  | clear | plusAssign | minusAssign | starAssign | slashAssign | percentAssign
  | ampersandAssign | barAssign | caretAssign | shiftLeftAssign | shiftRightAssign | clearAssign
  | conjunction | disjunction | arrow | increment | decrement | equal | less | greater | assign | exclamation
  | notEqual | atMost | atLeast | define | ellipsis | openParenthesis | closeParenthesis
  | openBracket | closeBracket | openBrace | closeBrace | comma | semicolon | colon | dot | tilde
  deriving Repr, DecidableEq

/-- What a token is to the grammar. -/
inductive Terminal where
  /-- A name that is not reserved. -/
  | identifier
  /-- One of the two predeclared names whose calls take a type. -/
  | allocator
  | number
  | character
  /-- A string between double quotes. -/
  | interpreted
  /-- A string between back quotes. -/
  | raw
  | keyword (word : Keyword)
  | operator (mark : Operator)
  /-- The end of the source. -/
  | finish
  deriving Repr, DecidableEq

/-- What separates tokens. -/
inductive Trivia where
  | blank (text : Text)
  | comment (text : Text)
  deriving Repr, DecidableEq

namespace Trivia

def text : Trivia → Text
  | blank text => text
  | comment text => text

/-- The text with a comment blanked out to a single space. -/
def code : Trivia → Text
  | blank text => text
  | comment _ => [' ']

/-- A line ends among the blanks; line ends inside comments do not count. -/
def breaksLine : Trivia → Bool
  | blank text => text.contains '\n'
  | comment _ => false

end Trivia

/-- A token with what stands before it and the number of characters before its
own text. -/
structure Token where
  lead : List Trivia
  terminal : Terminal
  text : Text
  start : Nat
  deriving Repr, DecidableEq

namespace Token

def stop (token : Token) : Nat :=
  token.start + token.text.length

/-- The token stands on a new line. -/
def onNewLine (token : Token) : Bool :=
  token.lead.any Trivia.breaksLine

/-- The source text of the token and of what stands before it. -/
def fullText (token : Token) : Text :=
  token.lead.flatMap Trivia.text ++ token.text

/-- The same with every comment blanked out. -/
def fullCode (token : Token) : Text :=
  token.lead.flatMap Trivia.code ++ token.text

/-- The comments among some trivia, the first of which starts at a position. -/
def commentsFrom : Nat → List Trivia → List (Nat × Text)
  | _, [] => []
  | position, .blank text :: rest => commentsFrom (position + text.length) rest
  | position, .comment text :: rest => (position, text) :: commentsFrom (position + text.length) rest

/-- The comments before the token with their positions. -/
def comments (token : Token) : List (Nat × Text) :=
  commentsFrom (token.start - (token.lead.flatMap Trivia.text).length) token.lead

end Token

/-- The reserved words as they are spelled. -/
def keywords : List (Text × Keyword) :=
  [(['b', 'r', 'e', 'a', 'k'], .breakWord),
    (['c', 'a', 's', 'e'], .caseWord),
    (['c', 'h', 'a', 'n'], .chanWord),
    (['c', 'o', 'n', 's', 't'], .constWord),
    (['c', 'o', 'n', 't', 'i', 'n', 'u', 'e'], .continueWord),
    (['d', 'e', 'f', 'a', 'u', 'l', 't'], .defaultWord),
    (['d', 'e', 'f', 'e', 'r'], .deferWord),
    (['e', 'l', 's', 'e'], .elseWord),
    (['f', 'a', 'l', 'l', 't', 'h', 'r', 'o', 'u', 'g', 'h'], .fallthroughWord),
    (['f', 'o', 'r'], .forWord),
    (['f', 'u', 'n', 'c'], .funcWord),
    (['g', 'o'], .goWord),
    (['g', 'o', 't', 'o'], .gotoWord),
    (['i', 'f'], .ifWord),
    (['i', 'm', 'p', 'o', 'r', 't'], .importWord),
    (['i', 'n', 't', 'e', 'r', 'f', 'a', 'c', 'e'], .interfaceWord),
    (['m', 'a', 'p'], .mapWord),
    (['p', 'a', 'c', 'k', 'a', 'g', 'e'], .packageWord),
    (['r', 'a', 'n', 'g', 'e'], .rangeWord),
    (['r', 'e', 't', 'u', 'r', 'n'], .returnWord),
    (['s', 'e', 'l', 'e', 'c', 't'], .selectWord),
    (['s', 't', 'r', 'u', 'c', 't'], .structWord),
    (['s', 'w', 'i', 't', 'c', 'h'], .switchWord),
    (['t', 'y', 'p', 'e'], .typeWord),
    (['v', 'a', 'r'], .varWord)]

/-- The marks as they are spelled, longer spellings before their beginnings. -/
def operators : List (Text × Operator) :=
  [(['<', '<', '='], .shiftLeftAssign), (['>', '>', '='], .shiftRightAssign),
    (['&', '^', '='], .clearAssign), (['.', '.', '.'], .ellipsis),
    ([':', '='], .define), (['<', '-'], .arrow), (['+', '+'], .increment),
    (['-', '-'], .decrement), (['&', '&'], .conjunction), (['|', '|'], .disjunction),
    (['=', '='], .equal), (['!', '='], .notEqual), (['<', '='], .atMost),
    (['>', '='], .atLeast), (['<', '<'], .shiftLeft), (['>', '>'], .shiftRight),
    (['&', '^'], .clear), (['+', '='], .plusAssign), (['-', '='], .minusAssign),
    (['*', '='], .starAssign), (['/', '='], .slashAssign), (['%', '='], .percentAssign),
    (['&', '='], .ampersandAssign), (['|', '='], .barAssign), (['^', '='], .caretAssign),
    (['('], .openParenthesis), ([')'], .closeParenthesis), (['['], .openBracket),
    ([']'], .closeBracket), (['{'], .openBrace), (['}'], .closeBrace), ([','], .comma),
    ([';'], .semicolon), ([':'], .colon), (['.'], .dot), (['='], .assign), (['*'], .star),
    (['&'], .ampersand), (['+'], .plus), (['-'], .minus), (['/'], .slash), (['%'], .percent),
    (['|'], .bar), (['^'], .caret), (['!'], .exclamation), (['<'], .less), (['>'], .greater),
    (['~'], .tilde)]

/-- The terminal of a name: a reserved word, an allocator or an identifier. -/
def wordTerminal (word : Text) : Terminal :=
  match keywords.find? fun entry => entry.1 == word with
  | some entry => .keyword entry.2
  | none =>
    if word = ['n', 'e', 'w'] ∨ word = ['m', 'a', 'k', 'e'] then .allocator else .identifier

end Go

end Scaffold
