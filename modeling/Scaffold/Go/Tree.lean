import Scaffold.Go.Token

/-!
# Syntax trees

A tree groups the tokens of a construct without dropping any of them.  The text
of a tree starts with its first token: what stands before that token belongs to
the surroundings.
-/

namespace Scaffold

namespace Go

/-- The constructs that are told apart. -/
inductive Kind where
  | packageClause | importDeclaration | importSpec | importName | importPath
  | functionDeclaration | methodDeclaration | constDeclaration | varDeclaration
  | typeDeclaration | typeSpec | typeAlias | interfaceType | otherType | methodElement
  | receiver | parameterList | parameter | variadicParameter | parameterType | result | name
  | block | simpleStatement | shortVarDeclaration | assignment | send | increment | decrement
  | returnStatement | goStatement | deferStatement | ifStatement | forStatement
  | expressionSwitch | typeSwitch | selectStatement | labeledStatement | fallthroughStatement
  | breakStatement | continueStatement | gotoStatement | emptyStatement
  deriving Repr, DecidableEq

/-- A syntax tree. -/
inductive Tree where
  | leaf (token : Token)
  | node (kind : Kind) (children : List Tree)
  deriving Repr

namespace Tree

mutual

/-- The tokens of a tree from left to right. -/
def tokens : Tree → List Token
  | leaf token => [token]
  | node _ children => tokensOfAll children

/-- The tokens of several trees from left to right. -/
def tokensOfAll : List Tree → List Token
  | [] => []
  | tree :: rest => tree.tokens ++ tokensOfAll rest

end

mutual

/-- The tree and everything inside it, each construct before its parts. -/
def subtrees : Tree → List Tree
  | leaf token => [leaf token]
  | node kind children => node kind children :: subtreesOfAll children

def subtreesOfAll : List Tree → List Tree
  | [] => []
  | tree :: rest => tree.subtrees ++ subtreesOfAll rest

end

/-- The construct of a tree; a single token is none. -/
def kind? : Tree → Option Kind
  | leaf _ => none
  | node kind _ => some kind

/-- The parts directly below a tree. -/
def children : Tree → List Tree
  | leaf _ => []
  | node _ children => children

/-- The tree is a construct of the given kind. -/
def isA (kind : Kind) (tree : Tree) : Bool :=
  tree.kind? == some kind

/-- The parts of a kind directly below a tree. -/
def parts (kind : Kind) (tree : Tree) : List Tree :=
  tree.children.filter (isA kind)

/-- All constructs of a kind inside a tree, the tree itself included. -/
def inside (kind : Kind) (tree : Tree) : List Tree :=
  tree.subtrees.filter (isA kind)

def text (tree : Tree) : Text :=
  match tree.tokens with
  | [] => []
  | first :: rest => first.text ++ rest.flatMap Token.fullText

/-- The text of a tree with every comment inside it blanked out to one space. -/
def code (tree : Tree) : Text :=
  match tree.tokens with
  | [] => []
  | first :: rest => first.text ++ rest.flatMap Token.fullCode

/-- The position of the first token; zero for a tree without tokens. -/
def start (tree : Tree) : Nat :=
  match tree.tokens with
  | [] => 0
  | first :: _ => first.start

/-- The position after the last token; zero for a tree without tokens. -/
def stop (tree : Tree) : Nat :=
  match tree.tokens.getLast? with
  | none => 0
  | some last => last.stop

/-- The comments between the first and the last token of a tree, with their
positions. -/
def innerComments (tree : Tree) : List (Nat × Text) :=
  tree.tokens.tail.flatMap Token.comments

/-- The comments directly before a tree, with their positions. -/
def leadingComments (tree : Tree) : List (Nat × Text) :=
  match tree.tokens with
  | [] => []
  | first :: _ => first.comments

end Tree

namespace Kind

/-- The name under which a construct is reported. -/
def label : Kind → Text
  | packageClause => "package_clause"
  | importDeclaration => "import_declaration"
  | importSpec => "import_spec"
  | importName => "package_identifier"
  | importPath => "interpreted_string_literal"
  | functionDeclaration => "function_declaration"
  | methodDeclaration => "method_declaration"
  | constDeclaration => "const_declaration"
  | varDeclaration => "var_declaration"
  | typeDeclaration => "type_declaration"
  | typeSpec => "type_spec"
  | typeAlias => "type_alias"
  | interfaceType => "interface_type"
  | otherType => "type"
  | methodElement => "method_elem"
  | receiver => "parameter_list"
  | parameterList => "parameter_list"
  | parameter => "parameter_declaration"
  | variadicParameter => "variadic_parameter_declaration"
  | parameterType => "type"
  | result => "result"
  | name => "identifier"
  | block => "block"
  | simpleStatement => "expression_statement"
  | shortVarDeclaration => "short_var_declaration"
  | assignment => "assignment_statement"
  | send => "send_statement"
  | increment => "inc_statement"
  | decrement => "dec_statement"
  | returnStatement => "return_statement"
  | goStatement => "go_statement"
  | deferStatement => "defer_statement"
  | ifStatement => "if_statement"
  | forStatement => "for_statement"
  | expressionSwitch => "expression_switch_statement"
  | typeSwitch => "type_switch_statement"
  | selectStatement => "select_statement"
  | labeledStatement => "labeled_statement"
  | fallthroughStatement => "fallthrough_statement"
  | breakStatement => "break_statement"
  | continueStatement => "continue_statement"
  | gotoStatement => "goto_statement"
  | emptyStatement => "empty_statement"

/-- What follows the expressions of a statement and decides what it is. -/
def isTail : Kind → Bool
  | shortVarDeclaration | assignment | send | increment | decrement => true
  | _ => false

end Kind

namespace Tree

/-- The name under which a tree at file level is reported: a simple statement
is named after what follows its expressions, a token after its text. -/
def label : Tree → Text
  | leaf token => token.text
  | node .simpleStatement children =>
    match children.getLast? with
    | some (node kind _) => if kind.isTail then kind.label else Kind.label .simpleStatement
    | _ => Kind.label .simpleStatement
  | node kind _ => kind.label

end Tree

end Go

end Scaffold
