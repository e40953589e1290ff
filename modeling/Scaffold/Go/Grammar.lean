import Scaffold.Go.Rule

/-!
# The grammar of Go source

The grammar accepts files, declarations and statements without checking types.
Declarations and statements may stand at file level in any order.  Expressions
are kept flat, because only their extent matters: declarations inside function
bodies are found however deep they stand.
-/

namespace Scaffold

namespace Go

/-- The names of the rules. -/
inductive Phrase where
  | typePhrase | simpleType | namedType | typeArguments | typeElement | literalType
  | parameters | parameter | result | typeParameters
  | typeSpec | constSpec | varSpec | valuedConstSpec | valuedVarSpec
  | importSpec | closableDeclaration | topLevel
  | block | statements | statement | plainStatement | simple | expressions | expression | unary | operand | suffix
  | arguments | literalValue | ifStatement | caseBody
  deriving Repr, DecidableEq

namespace Grammar

open Rule

def word (keyword : Keyword) : Rule Phrase :=
  token (.keyword keyword)

/-- An operator or punctuation mark. -/
def mark (operator : Operator) : Rule Phrase :=
  token (.operator operator)

def identifier : Rule Phrase :=
  either (token .identifier) (token .allocator)

def string : Rule Phrase :=
  either (token .interpreted) (token .raw)

/-- The end of a line or a semicolon. -/
def terminator : Rule Phrase :=
  either newLine (mark .semicolon)

/-- A rule that must continue the line where lines matter. -/
def continued (rules : List (Rule Phrase)) : Rule Phrase :=
  seq (sameLine :: rules)

/-- Names with commas between them. -/
def names : Rule Phrase :=
  separated (mark .comma) identifier

/-- Items with terminators between them; after the last one the terminator may
be missing. -/
def terminatedItems (item : Rule Phrase) : Rule Phrase :=
  under .lines (maybe (seq [separated terminator item, maybe terminator]))

/-- Items with commas between and possibly after them. -/
def listed (item : Rule Phrase) : Rule Phrase :=
  seq [separated (mark .comma) item, maybe (mark .comma)]

/-- A parenthesised rule; line breaks inside are skipped. -/
def parenthesised (body : Rule Phrase) : Rule Phrase :=
  seq [mark .openParenthesis, under .flowing body, mark .closeParenthesis]

/-- A bracketed rule; line breaks inside are skipped. -/
def bracketed (body : Rule Phrase) : Rule Phrase :=
  seq [mark .openBracket, under .flowing body, mark .closeBracket]

/-- Items in braces, each ended by a terminator. -/
def braced (item : Rule Phrase) : Rule Phrase :=
  seq [mark .openBrace, terminatedItems item, mark .closeBrace]

/-- One item, or several in parentheses. -/
def oneOrListed (item : Rule Phrase) : Rule Phrase :=
  first [seq [mark .openParenthesis, terminatedItems item, mark .closeParenthesis], item]

/-- One item, or several in parentheses each of which needs its terminator. -/
def oneOrTerminated (item : Rule Phrase) : Rule Phrase :=
  first
    [seq [mark .openParenthesis, under .lines (many (seq [item, terminator])),
        mark .closeParenthesis],
      item]

/-! ## Types -/

/-- An interface: methods and type elements. -/
def interfaceType : Rule Phrase :=
  group .interfaceType
    (seq [word .interfaceWord,
      braced (first
        [group .methodElement
            (seq [group .name identifier, sameLine, refer .parameters,
              maybe (continued [refer .result])]),
          refer .typeElement])])

/-- What may follow the last part of a struct field. -/
def fieldEnd : Rule Phrase :=
  first [newLine, mark .semicolon, mark .closeBrace]

/-- A struct: embedded types and fields, each possibly with a tag. -/
def structType : Rule Phrase :=
  let tag := maybe (continued [string])
  seq [word .structWord,
    braced (first
      [seq [maybe (mark .star), refer .namedType, tag, ahead fieldEnd],
        seq [identifier, many (continued [mark .comma, identifier]), sameLine, refer .typePhrase,
          tag]])]

def arrayType : Rule Phrase :=
  first
    [seq [mark .openBracket, mark .closeBracket, refer .typePhrase],
      seq [bracketed (refer .expression), refer .typePhrase]]

/-- An array whose length is counted. -/
def countedArrayType : Rule Phrase :=
  seq [bracketed (mark .ellipsis), refer .typePhrase]

def mapType : Rule Phrase :=
  seq [word .mapWord, bracketed (refer .typePhrase), refer .typePhrase]

def channelType : Rule Phrase :=
  first
    [seq [mark .arrow, word .chanWord, refer .typePhrase],
      seq [word .chanWord, mark .arrow, refer .typePhrase],
      seq [word .chanWord, refer .typePhrase]]

def functionType : Rule Phrase :=
  seq [word .funcWord, refer .parameters, maybe (continued [refer .result])]

/-- A type that is not parenthesised. -/
def simpleType : Rule Phrase :=
  first
    [interfaceType,
      group .otherType
        (first
          [refer .namedType,
            structType,
            seq [mark .star, refer .typePhrase],
            arrayType,
            mapType,
            channelType,
            functionType,
            seq [mark .tilde, refer .typePhrase]])]

/-- A parameter: variadic, with names, or only a type. -/
def parameter : Rule Phrase :=
  first
    [group .variadicParameter (seq [maybe identifier, mark .ellipsis, refer .typePhrase]),
      group .parameter (seq [names, group .parameterType (refer .typePhrase)]),
      group .parameter (group .parameterType (refer .typePhrase))]

/-- The signature and body that functions and methods share. -/
def signature : Rule Phrase :=
  seq [refer .parameters, maybe (continued [refer .result]), maybe (continued [refer .block])]

/-! ## Declarations -/

def typeDeclaration : Rule Phrase :=
  group .typeDeclaration (seq [word .typeWord, oneOrListed (refer .typeSpec)])

def typeSpec : Rule Phrase :=
  first
    [group .typeAlias
        (seq [identifier, maybe (refer .typeParameters), mark .assign, refer .typePhrase]),
      group .typeSpec
        (seq [group .name identifier,
          first [seq [refer .typeParameters, refer .typePhrase], refer .typePhrase]])]

/-- A constant declaration with the given specifications. -/
def constDeclaration (spec : Phrase) : Rule Phrase :=
  group .constDeclaration (seq [word .constWord, oneOrTerminated (refer spec)])

/-- A variable declaration with the given specifications. -/
def varDeclaration (spec : Phrase) : Rule Phrase :=
  group .varDeclaration (seq [word .varWord, oneOrTerminated (refer spec)])

def valuedConstSpec : Rule Phrase :=
  seq [names, sameLine, maybe (refer .typePhrase), mark .assign, refer .expressions]

/-- Constants, possibly with values. -/
def constSpec : Rule Phrase :=
  seq [names, maybe (continued [maybe (refer .typePhrase), mark .assign, refer .expressions])]

def valuedVarSpec : Rule Phrase :=
  first
    [seq [names, refer .typePhrase, sameLine, mark .assign, refer .expressions],
      seq [names, mark .assign, refer .expressions]]

/-- Variables with a type, values or both. -/
def varSpec : Rule Phrase :=
  seq [names,
    first
      [seq [refer .typePhrase, maybe (continued [mark .assign, refer .expressions])],
        seq [mark .assign, refer .expressions]]]

/-- An imported path, possibly under a name. -/
def importSpec : Rule Phrase :=
  group .importSpec
    (seq [maybe (group .importName (either (mark .dot) identifier)), group .importPath string])

/-- The declarations that only stand at file level. -/
def fileDeclaration : Rule Phrase :=
  first
    [group .packageClause (seq [word .packageWord, group .name identifier]),
      group .importDeclaration (seq [word .importWord, oneOrListed (refer .importSpec)]),
      group .methodDeclaration
        (seq [word .funcWord, group .receiver (refer .parameters), group .name identifier,
          signature]),
      group .functionDeclaration
        (seq [word .funcWord, identifier, maybe (refer .typeParameters), signature])]

/-- A declaration or statement with its terminator.  At the end of the file the
terminator may be missing, except after a type and after constants or variables
without values. -/
def topLevel : Rule Phrase :=
  first
    [seq [first [fileDeclaration, refer .statement], terminator],
      seq [first [fileDeclaration, refer .closableDeclaration], ahead (token .finish)]]

/-- What the end of the file may end. -/
def closableDeclaration : Rule Phrase :=
  first
    [constDeclaration .valuedConstSpec,
      varDeclaration .valuedVarSpec,
      refer .plainStatement]

/-! ## Statements -/

/-- A statement that a label stands before. -/
def labelled : Rule Phrase :=
  group .labeledStatement (seq [identifier, sameLine, mark .colon, refer .statement])

def emptyLabelled : Rule Phrase :=
  group .labeledStatement (seq [identifier, sameLine, mark .colon])

def assignmentMark : Rule Phrase :=
  first
    [mark .assign, mark .plusAssign, mark .minusAssign, mark .starAssign, mark .slashAssign,
      mark .percentAssign, mark .ampersandAssign, mark .barAssign, mark .caretAssign,
      mark .shiftLeftAssign, mark .shiftRightAssign, mark .clearAssign]

/-- An assignment or a short variable declaration after its left side. -/
def assignmentTail : Rule Phrase :=
  first
    [group .shortVarDeclaration (continued [mark .define, refer .expressions]),
      group .assignment (continued [assignmentMark, refer .expressions])]

/-- A statement that begins with expressions. -/
def simple : Rule Phrase :=
  group .simpleStatement
    (seq [refer .expression,
      first
        [seq [continued [mark .comma, refer .expression],
            many (continued [mark .comma, refer .expression]), assignmentTail],
          maybe
            (first
              [assignmentTail,
                group .send (continued [mark .arrow, refer .expression]),
                group .increment (continued [mark .increment]),
                group .decrement (continued [mark .decrement])])]])

/-- A rule before a block.  A brace after a type name opens the block. -/
def beforeBlock (head body : Rule Phrase) : Rule Phrase :=
  seq [under .header head, body]

/-- A rule before a semicolon, where a brace after a type name opens a composite
literal again. -/
def beforeSemicolon (head : Rule Phrase) : Rule Phrase :=
  seq [under .flowing head, mark .semicolon]

/-- A statement that prepares a condition. -/
def preparation : Rule Phrase :=
  beforeSemicolon (refer .simple)

def ifStatement : Rule Phrase :=
  group .ifStatement
    (seq [word .ifWord,
      beforeBlock (first [seq [preparation, refer .expression], refer .expression])
        (refer .block),
      maybe (continued [word .elseWord, first [refer .block, refer .ifStatement]])])

/-- What stands between `for` and its block. -/
def forHead : Rule Phrase :=
  maybe
    (first
      [seq [maybe (seq [refer .expressions, first [mark .define, mark .assign]]),
          word .rangeWord, refer .expression],
        seq [beforeSemicolon (maybe (refer .simple)), beforeSemicolon (maybe (refer .expression)),
          maybe (refer .simple)],
        refer .expression])

/-- The default case of a switch or select statement. -/
def defaultCase : Rule Phrase :=
  seq [word .defaultWord, mark .colon, refer .caseBody]

def cases (head : Rule Phrase) : Rule Phrase :=
  seq [mark .openBrace,
    many (first
      [seq [word .caseWord, under .flowing head, mark .colon, refer .caseBody], defaultCase]),
    mark .closeBrace]

/-- A switch over the type of a value. -/
def typeSwitch : Rule Phrase :=
  group .typeSwitch
    (seq [word .switchWord,
      beforeBlock
        (seq [maybe preparation, maybe (seq [refer .expressions, mark .define]),
          refer .expression, mark .dot, mark .openParenthesis, word .typeWord,
          mark .closeParenthesis])
        (cases (separated (mark .comma) (refer .typePhrase)))])

def expressionSwitch : Rule Phrase :=
  group .expressionSwitch
    (seq [word .switchWord,
      beforeBlock (seq [maybe preparation, maybe (refer .expression)])
        (cases (refer .expressions))])

def selectStatement : Rule Phrase :=
  group .selectStatement
    (seq [word .selectWord,
      cases (first
        [seq [refer .expressions, first [mark .define, mark .assign], refer .expression],
          seq [refer .expression, maybe (seq [mark .arrow, refer .expression])]])])

/-- A statement that may name a label. -/
def jump (kind : Kind) (keyword : Keyword) : Rule Phrase :=
  group kind (seq [word keyword, maybe (continued [identifier])])

/-- A statement that declares no constants, types or variables. -/
def plainStatement : Rule Phrase :=
  first
    [group .returnStatement (seq [word .returnWord, maybe (continued [refer .expressions])]),
      group .goStatement (seq [word .goWord, refer .expression]),
      group .deferStatement (seq [word .deferWord, refer .expression]),
      refer .ifStatement,
      group .forStatement (seq [word .forWord, beforeBlock forHead (refer .block)]),
      typeSwitch,
      expressionSwitch,
      selectStatement,
      group .fallthroughStatement (word .fallthroughWord),
      jump .breakStatement .breakWord,
      jump .continueStatement .continueWord,
      group .gotoStatement (seq [word .gotoWord, identifier]),
      refer .block,
      group .emptyStatement (mark .semicolon),
      labelled,
      seq [refer .simple, notBefore (.operator .colon)]]

def statement : Rule Phrase :=
  first
    [constDeclaration .constSpec,
      typeDeclaration,
      varDeclaration .varSpec,
      refer .plainStatement]

/-- Statements with terminators between them. -/
def statements : Rule Phrase :=
  under .lines
    (first
      [seq [separated terminator (refer .statement),
          maybe (seq [terminator, maybe emptyLabelled])],
        emptyLabelled])

/-! ## Expressions -/

/-- The operators before an operand. -/
def unaryMark : Rule Phrase :=
  first
    [mark .plus, mark .minus, mark .exclamation, mark .caret, mark .star, mark .ampersand,
      mark .arrow]

/-- The operators between operands. -/
def binaryMark : Rule Phrase :=
  first
    [mark .star, mark .slash, mark .percent, mark .shiftLeft, mark .shiftRight, mark .ampersand,
      mark .clear, mark .plus, mark .minus, mark .bar, mark .caret, mark .equal, mark .notEqual,
      mark .less, mark .atMost, mark .greater, mark .atLeast, mark .conjunction,
      mark .disjunction]

/-- The value that is converted to a type. -/
def conversion : Rule Phrase :=
  parenthesised (seq [refer .expression, maybe (mark .comma)])

/-- A type whose values can be written out. -/
def literalType : Rule Phrase :=
  first [structType, arrayType, mapType]

def functionLiteral : Rule Phrase :=
  seq [word .funcWord, refer .parameters, maybe (refer .result), refer .block]

/-- The call of an allocator: a type and further arguments. -/
def allocation : Rule Phrase :=
  seq [token .allocator,
    parenthesised (maybe
      (seq [refer .typePhrase, many (seq [mark .comma, refer .expression]),
        maybe (mark .comma)]))]

def operand : Rule Phrase :=
  first
    [functionLiteral,
      seq [refer .literalType, first [refer .literalValue, conversion]],
      seq [countedArrayType, refer .literalValue],
      seq [first [interfaceType, channelType, functionType], conversion],
      seq [outsideHeader, refer .namedType, sameLine, refer .literalValue],
      allocation,
      identifier,
      token .number,
      token .character,
      string,
      parenthesised (refer .expression),
      seq [parenthesised (refer .typePhrase), ahead (mark .openParenthesis)]]

/-- What stands between the brackets behind an operand: a slice, an index or
type arguments. -/
def index : Rule Phrase :=
  let upper :=
    seq [mark .colon,
      maybe (seq [refer .expression, maybe (seq [mark .colon, refer .expression])])]
  first
    [upper,
      seq [refer .expression, first [upper, ahead (mark .closeBracket)]],
      listed (refer .typeElement)]

/-- A selector, a type assertion, an index, a slice, type arguments or a call. -/
def suffix : Rule Phrase :=
  first
    [continued [mark .dot, first [identifier, parenthesised (refer .typePhrase)]],
      continued [bracketed index],
      continued [refer .arguments]]

def table : Phrase → Rule Phrase
  | .typePhrase => first [simpleType, group .otherType (parenthesised (refer .typePhrase))]
  | .simpleType => simpleType
  | .namedType =>
    seq [identifier, maybe (continued [mark .dot, identifier]),
      maybe (continued [refer .typeArguments])]
  | .typeArguments => bracketed (listed (refer .typeElement))
  | .typeElement => separated (continued [mark .bar]) (refer .typePhrase)
  | .literalType => literalType
  | .parameters =>
    group .parameterList
      (parenthesised
        (seq [maybe (separated (mark .comma) (refer .parameter)), maybe (mark .comma)]))
  | .parameter => parameter
  | .result => group .result (first [refer .parameters, refer .simpleType])
  | .typeParameters => bracketed (listed (seq [names, refer .typeElement]))
  | .typeSpec => typeSpec
  | .constSpec => constSpec
  | .varSpec => varSpec
  | .valuedConstSpec => valuedConstSpec
  | .valuedVarSpec => valuedVarSpec
  | .importSpec => importSpec
  | .closableDeclaration => closableDeclaration
  | .topLevel => topLevel
  | .block => group .block (seq [mark .openBrace, maybe (refer .statements), mark .closeBrace])
  | .statements => statements
  | .statement => statement
  | .plainStatement => plainStatement
  | .simple => simple
  | .expressions => separated (continued [mark .comma]) (refer .expression)
  | .expression => separated (continued [binaryMark]) (refer .unary)
  | .unary => first [seq [unaryMark, refer .unary], seq [refer .operand, many (refer .suffix)]]
  | .operand => operand
  | .suffix => suffix
  | .arguments =>
    parenthesised (maybe
      (listed (seq [refer .expression, maybe (mark .ellipsis)])))
  | .literalValue =>
    let value := first [refer .literalValue, refer .expression]
    let element := seq [value, maybe (seq [mark .colon, value])]
    seq [mark .openBrace,
      under .flowing
        (seq [maybe (separated (mark .comma) element), maybe (mark .comma)]),
      mark .closeBrace]
  | .ifStatement => ifStatement
  | .caseBody => maybe (refer .statements)

def file : Rule Phrase :=
  under .lines (seq [many (refer .topLevel), token .finish])

end Grammar

end Go

end Scaffold
