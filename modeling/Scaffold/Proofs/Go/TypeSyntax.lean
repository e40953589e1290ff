import Mathlib.Data.Bool.AllAny
import Mathlib.Data.List.Chain
import Scaffold.Proofs.Contract.Mentions
import Scaffold.Proofs.Text.Classes

/-!
# Types of Go and how they are written

The syntax of type expressions as a tree, with the constant expressions that
stand for the lengths of arrays.  A leaf says what it is there for: the name of
a type or constant, or a label, that is the name of a field, a method or a
parameter.  A tree is written as its lexemes with white space before them.

The trees describe a little more than the language accepts, such as a variadic
parameter before others.  Constants are built from literals, names, operators,
calls, conversions, indices and composite literals.
-/

namespace Scaffold

namespace Go

namespace TypeSyntax

/-! ## Lexemes -/

/-- A name that is not reserved. -/
structure Identifier where
  first : Char
  rest : Text
  starts : startsName first = true
  continues : ∀ character ∈ rest, continuesName character = true
  free : ∀ entry ∈ keywords, entry.1 ≠ first :: rest

def Identifier.text (identifier : Identifier) : Text :=
  identifier.first :: identifier.rest

/-- White space, possibly none. -/
structure Blank where
  text : Text
  blank : ∀ character ∈ text, Text.isSpace character = true

def Blank.none : Blank :=
  ⟨[], nofun⟩

def Blank.space : Blank :=
  ⟨[' '], List.forall_mem_singleton.mpr (by decide)⟩

/-- A number, a character or a string as the lexer finds it. -/
structure Literal where
  text : Text
  terminal : Terminal
  value : terminal ∈ [.number, .character, .interpreted, .raw]
  found : piece? text = some (.lexeme terminal text)

/-- A mark as it is spelled. -/
def spelling (operator : Operator) : Text :=
  ((operators.find? fun entry => entry.2 == operator).map Prod.fst).getD []

/-- A reserved word as it is spelled. -/
def wordSpelling (keyword : Keyword) : Text :=
  ((keywords.find? fun entry => entry.2 == keyword).map Prod.fst).getD []

/-- The lexemes of types. -/
inductive Lexeme where
  /-- A type or a constant of the package itself or of the language. -/
  | name (identifier : Identifier)
  /-- A type or a constant of another package. -/
  | selected (package : Identifier) (before after : Blank) (identifier : Identifier)
  /-- A field, a method or a parameter. -/
  | label (identifier : Identifier)
  /-- A variadic parameter with its ellipsis. -/
  | rest (identifier : Identifier) (gap : Blank)
  | literal (value : Literal)
  | word (keyword : Keyword)
  | mark (operator : Operator)
  /-- The beginning of a channel that is only received from. -/
  | receive (gap : Blank)
  /-- The end of a line that ends a field or a method. -/
  | lineEnd

def Lexeme.text : Lexeme → Text
  | name identifier => identifier.text
  | selected package before after identifier =>
    package.text ++ (before.text ++ '.' :: (after.text ++ identifier.text))
  | label identifier => identifier.text
  | rest identifier gap => identifier.text ++ gap.text ++ ['.', '.', '.']
  | literal value => value.text
  | word keyword => wordSpelling keyword
  | mark operator => spelling operator
  | receive gap => ['<', '-'] ++ gap.text ++ ['c', 'h', 'a', 'n']
  | lineEnd => ['\n']

/-! ## How lexemes are spelled -/

theorem spelling_mem_operators (operator : Operator) :
    (spelling operator, operator) ∈ operators := by
  cases operator <;> decide

theorem wordSpelling_mem_keywords (keyword : Keyword) :
    (wordSpelling keyword, keyword) ∈ keywords := by
  cases keyword <;> decide

/-- The character belongs to a mark. -/
structure IsMark (character : Char) : Prop where
  separate : Text.isWord character = false
  solid : Text.isBlank character = false
  small : Qualification.isCapital character = false

instance (character : Char) : Decidable (IsMark character) :=
  decidable_of_iff (Text.isWord character = false ∧ Text.isBlank character = false ∧
      Qualification.isCapital character = false)
    ⟨fun ⟨separate, solid, small⟩ => ⟨separate, solid, small⟩,
      fun mark => ⟨mark.separate, mark.solid, mark.small⟩⟩

theorem spelling_ne_nil (operator : Operator) : spelling operator ≠ [] := by
  have all : ∀ entry ∈ operators, entry.1 ≠ [] := by decide
  exact all _ (spelling_mem_operators operator)

theorem isMark_of_mem_spelling {operator : Operator} :
    ∀ character ∈ spelling operator, IsMark character := by
  have all : ∀ entry ∈ operators, entry.1.all fun character => IsMark character := by
    decide +kernel
  exact List.all_iff_forall_prop.mp (all _ (spelling_mem_operators operator))

/-- The character is a small letter of a reserved word. -/
structure IsSmall (character : Char) : Prop where
  word : Text.isWord character = true
  small : Qualification.isCapital character = false

instance (character : Char) : Decidable (IsSmall character) :=
  decidable_of_iff (Text.isWord character = true ∧ Qualification.isCapital character = false)
    ⟨fun ⟨word, small⟩ => ⟨word, small⟩, fun letter => ⟨letter.word, letter.small⟩⟩

theorem wordSpelling_ne_nil (keyword : Keyword) : wordSpelling keyword ≠ [] := by
  have all : ∀ entry ∈ keywords, entry.1 ≠ [] := by decide
  exact all _ (wordSpelling_mem_keywords keyword)

theorem isSmall_of_mem_wordSpelling {keyword : Keyword} :
    ∀ character ∈ wordSpelling keyword, IsSmall character := by
  have all : ∀ entry ∈ keywords, entry.1.all fun character => IsSmall character := by
    decide +kernel
  exact List.all_iff_forall_prop.mp (all _ (wordSpelling_mem_keywords keyword))

namespace Identifier

variable (identifier : Identifier)

theorem isWord_first : Text.isWord identifier.first = true :=
  isWord_of_startsName identifier.starts

theorem isWord_of_mem_rest : ∀ character ∈ identifier.rest, Text.isWord character = true :=
  fun character member => isWord_of_continuesName (identifier.continues character member)

theorem isWord_of_mem_text : ∀ character ∈ identifier.text, Text.isWord character = true :=
  List.forall_mem_cons.mpr ⟨identifier.isWord_first, identifier.isWord_of_mem_rest⟩

end Identifier

/-- A literal begins with a digit, a quotation mark or a dot before a digit. -/
theorem Literal.begins (literal : Literal) :
    ∃ first rest, literal.text = first :: rest ∧
      (isDecimal first = true ∨ first = '.' ∧ rest.head?.any isDecimal = true ∨
        first = '"' ∨ first = backQuote ∨ first = apostrophe) := by
  obtain ⟨text, terminal, value, found⟩ := literal
  have reserved (word : Text) :
      wordTerminal word ∉ [Terminal.number, .character, .interpreted, .raw] := by
    unfold wordTerminal
    split
    · simp
    · split <;> simp
  unfold piece? at found
  split at found
  · cases found
  · cases found
  · obtain ⟨_, _, same⟩ := Option.map_eq_some_iff.mp found
    cases same
  · rename_i first rest _ _
    refine ⟨first, rest, rfl, ?_⟩
    split at found
    · cases found
    · split at found
      · obtain ⟨rfl, _⟩ := Piece.lexeme.inj (Option.some.inj found)
        exact absurd value (reserved _)
      · split at found
        · rename_i digits
          grind
        · split at found
          · rename_i quote
            exact .inr (.inr (.inl quote))
          · split at found
            · rename_i quote
              exact .inr (.inr (.inr (.inl quote)))
            · split at found
              · rename_i quote
                exact .inr (.inr (.inr (.inr quote)))
              · obtain ⟨entry, _, same⟩ := Option.map_eq_some_iff.mp found
                obtain ⟨rfl, _⟩ := Piece.lexeme.inj same
                simp at value

/-! ## Trees -/

/-- The parts of types. -/
inductive Part where
  /-- The name of a type or a constant. -/
  | name
  /-- A name of a type, possibly with type arguments. -/
  | named
  | type
  | signature
  | parameters
  | result
  /-- A parameter without a name. -/
  | item
  /-- Parameters of one type with their names. -/
  | group
  | label
  /-- Fields of one type without their tag. -/
  | column
  | field
  /-- A method or an embedded type of an interface. -/
  | element
  | term
  | constant
  | argument
  | value
  /-- A value in a composite literal, possibly with its key. -/
  | pair
  /-- One or more with separators between them. -/
  | several (part : Part)
  /-- One or more, with a separator possibly behind the last. -/
  | filled (part : Part)
  /-- None or more. -/
  | block (part : Part)

/-- What stands between several of a part. -/
def Part.separators : Part → List Lexeme
  | .field | .element => [.mark .semicolon, .lineEnd]
  | .term => [.mark .bar]
  | _ => [.mark .comma]

/-- The operators before an operand. -/
def unaryOperators : List Operator :=
  [.plus, .minus, .exclamation, .caret, .star, .ampersand]

/-- The operators between operands. -/
def binaryOperators : List Operator :=
  [.star, .slash, .percent, .shiftLeft, .shiftRight, .ampersand, .clear, .plus, .minus, .bar,
    .caret, .equal, .notEqual, .less, .atMost, .greater, .atLeast, .conjunction, .disjunction]

inductive Expression : Part → Type where
  | plain (identifier : Identifier) : Expression .name
  | selected (package : Identifier) (before after : Blank) (identifier : Identifier) :
      Expression .name
  | bare (name : Expression .name) : Expression .named
  | instantiated (name : Expression .name) (arguments : Expression (.filled .type)) :
      Expression .named
  -- Types
  | ofName (base : Expression .named) : Expression .type
  | enclosed (type : Expression .type) : Expression .type
  | pointer (target : Expression .type) : Expression .type
  | slice (element : Expression .type) : Expression .type
  | array (length : Expression .constant) (element : Expression .type) : Expression .type
  | map (key element : Expression .type) : Expression .type
  | channel (element : Expression .type) : Expression .type
  | sender (element : Expression .type) : Expression .type
  | receiver (gap : Blank) (element : Expression .type) : Expression .type
  | function (form : Expression .signature) : Expression .type
  | record (fields : Expression (.block .field)) : Expression .type
  | interface (elements : Expression (.block .element)) : Expression .type
  -- Functions
  | signature (parameters : Expression .parameters) (result : Expression .result) :
      Expression .signature
  | unnamed (items : Expression (.block .item)) : Expression .parameters
  | named (groups : Expression (.block .group)) : Expression .parameters
  | noResult : Expression .result
  | single (type : Expression .type) : Expression .result
  | results (parameters : Expression .parameters) : Expression .result
  | item (type : Expression .type) : Expression .item
  | variadic (type : Expression .type) : Expression .item
  | group (names : Expression (.several .label)) (type : Expression .type) : Expression .group
  | rest (identifier : Identifier) (gap : Blank) (type : Expression .type) : Expression .group
  | label (identifier : Identifier) : Expression .label
  -- Fields
  | column (names : Expression (.several .label)) (type : Expression .type) : Expression .column
  | embedded (base : Expression .named) : Expression .column
  | embeddedPointer (base : Expression .named) : Expression .column
  | untagged (fields : Expression .column) : Expression .field
  | tagged (fields : Expression .column) (tag : Literal)
      (string : tag.terminal = .interpreted ∨ tag.terminal = .raw) : Expression .field
  -- Interfaces
  | method (identifier : Identifier) (form : Expression .signature) : Expression .element
  | union (terms : Expression (.several .term)) : Expression .element
  | term (type : Expression .type) : Expression .term
  | underlying (type : Expression .type) : Expression .term
  -- Constants
  | literal (spelled : Literal) : Expression .constant
  | constant (name : Expression .name) : Expression .constant
  | unary (operator : Operator) (known : operator ∈ unaryOperators)
      (operand : Expression .constant) : Expression .constant
  | binary (left : Expression .constant) (operator : Operator)
      (known : operator ∈ binaryOperators) (right : Expression .constant) : Expression .constant
  | enclosedConstant (operand : Expression .constant) : Expression .constant
  | call (callee : Expression .type) (arguments : Expression (.block .argument)) :
      Expression .constant
  | index (operand position : Expression .constant) : Expression .constant
  | composite (type : Expression .type) (pairs : Expression (.block .pair)) :
      Expression .constant
  | counted (element : Expression .type) (pairs : Expression (.block .pair)) :
      Expression .constant
  | typeArgument (type : Expression .type) : Expression .argument
  | constantArgument (operand : Expression .constant) : Expression .argument
  | value (operand : Expression .constant) : Expression .value
  | nested (pairs : Expression (.block .pair)) : Expression .value
  | unkeyed (element : Expression .value) : Expression .pair
  | keyed (key element : Expression .value) : Expression .pair
  | ofField (identifier : Identifier) (element : Expression .value) : Expression .pair
  -- Lists
  | last {part : Part} (expression : Expression part) : Expression (.several part)
  | more {part : Part} (expression : Expression part) (separator : Lexeme)
      (between : separator ∈ part.separators) (others : Expression (.several part)) :
      Expression (.several part)
  | exact {part : Part} (expressions : Expression (.several part)) : Expression (.filled part)
  | trailed {part : Part} (expressions : Expression (.several part)) (separator : Lexeme)
      (between : separator ∈ part.separators) : Expression (.filled part)
  | empty {part : Part} : Expression (.block part)
  | full {part : Part} (expressions : Expression (.filled part)) : Expression (.block part)

def inParentheses (lexemes : List Lexeme) : List Lexeme :=
  .mark .openParenthesis :: lexemes ++ [.mark .closeParenthesis]

def inBrackets (lexemes : List Lexeme) : List Lexeme :=
  .mark .openBracket :: lexemes ++ [.mark .closeBracket]

def inBraces (lexemes : List Lexeme) : List Lexeme :=
  .mark .openBrace :: lexemes ++ [.mark .closeBrace]

namespace Expression

/-- The lexemes of a tree in the order in which they are written. -/
def lexemes {part : Part} : Expression part → List Lexeme
  | plain identifier => [.name identifier]
  | selected package before after identifier => [.selected package before after identifier]
  | bare name => name.lexemes
  | instantiated name arguments => name.lexemes ++ inBrackets arguments.lexemes
  | ofName base => base.lexemes
  | enclosed type => inParentheses type.lexemes
  | pointer target => .mark .star :: target.lexemes
  | slice element => inBrackets [] ++ element.lexemes
  | array length element => inBrackets length.lexemes ++ element.lexemes
  | map key element => .word .mapWord :: (inBrackets key.lexemes ++ element.lexemes)
  | channel element => .word .chanWord :: element.lexemes
  | sender element => .word .chanWord :: .mark .arrow :: element.lexemes
  | receiver gap element => .receive gap :: element.lexemes
  | function form => .word .funcWord :: form.lexemes
  | record fields => .word .structWord :: inBraces fields.lexemes
  | interface elements => .word .interfaceWord :: inBraces elements.lexemes
  | signature parameters result => parameters.lexemes ++ result.lexemes
  | unnamed items => inParentheses items.lexemes
  | named groups => inParentheses groups.lexemes
  | noResult => []
  | single type => type.lexemes
  | results parameters => parameters.lexemes
  | item type => type.lexemes
  | variadic type => .mark .ellipsis :: type.lexemes
  | group names type => names.lexemes ++ type.lexemes
  | rest identifier gap type => .rest identifier gap :: type.lexemes
  | label identifier => [.label identifier]
  | column names type => names.lexemes ++ type.lexemes
  | embedded base => base.lexemes
  | embeddedPointer base => .mark .star :: base.lexemes
  | untagged fields => fields.lexemes
  | tagged fields tag _ => fields.lexemes ++ [.literal tag]
  | method identifier form => .label identifier :: form.lexemes
  | union terms => terms.lexemes
  | term type => type.lexemes
  | underlying type => .mark .tilde :: type.lexemes
  | literal spelled => [.literal spelled]
  | constant name => name.lexemes
  | unary operator _ operand => .mark operator :: operand.lexemes
  | binary left operator _ right => left.lexemes ++ .mark operator :: right.lexemes
  | enclosedConstant operand => inParentheses operand.lexemes
  | call callee arguments => callee.lexemes ++ inParentheses arguments.lexemes
  | index operand position => operand.lexemes ++ inBrackets position.lexemes
  | composite type pairs => type.lexemes ++ inBraces pairs.lexemes
  | counted element pairs =>
    inBrackets [.mark .ellipsis] ++ element.lexemes ++ inBraces pairs.lexemes
  | typeArgument type => type.lexemes
  | constantArgument operand => operand.lexemes
  | value operand => operand.lexemes
  | nested pairs => inBraces pairs.lexemes
  | unkeyed element => element.lexemes
  | keyed key element => key.lexemes ++ .mark .colon :: element.lexemes
  | ofField identifier element => .label identifier :: .mark .colon :: element.lexemes
  | last expression => expression.lexemes
  | more expression separator _ others => expression.lexemes ++ separator :: others.lexemes
  | exact expressions => expressions.lexemes
  | trailed expressions separator _ => expressions.lexemes ++ [separator]
  | empty => []
  | full expressions => expressions.lexemes

end Expression

/-! ## Writing -/

namespace Lexeme

/-- A letter, a digit or a dot behind the lexeme would be taken for a part of it. -/
def runsOn : Lexeme → Bool
  | name _ | selected .. | label _ | literal _ | word _ | receive _ => true
  | mark operator => operator == .dot
  | rest .. | lineEnd => false

/-- White space is needed between the lexemes. -/
def RunsInto (left right : Lexeme) : Prop :=
  left.runsOn = true ∧
    right.text.head?.any (fun character => Text.isWord character || character == '.') = true

instance (left right : Lexeme) : Decidable (left.RunsInto right) :=
  inferInstanceAs (Decidable (_ ∧ _))

end Lexeme

/-- A lexeme behind white space. -/
structure Placed where
  gap : Blank
  lexeme : Lexeme

def Placed.text (placed : Placed) : Text :=
  placed.gap.text ++ placed.lexeme.text

/-- The lexemes do not run together where nothing stands between them. -/
def AreApart (line : List Placed) : Prop :=
  line.IsChain fun left right => right.gap.text = [] → ¬ left.lexeme.RunsInto right.lexeme

instance (line : List Placed) : Decidable (AreApart line) :=
  inferInstanceAs (Decidable (List.IsChain _ line))

/-- A tree as it is written: its lexemes behind white space, which is found
where they would run together. -/
structure Written (part : Part) where
  expression : Expression part
  line : List Placed
  spells : line.map Placed.lexeme = expression.lexemes
  flush : ∀ placed ∈ line.head?, placed.gap.text = []
  apart : AreApart line

def Written.text {part : Part} (written : Written part) : Text :=
  written.line.flatMap Placed.text

/-! ## What stands behind a lexeme -/

open Qualification (IsGap IsClear)

theorem isGap_of_isSpace {character : Char} (space : Text.isSpace character = true) :
    IsGap character := by
  have blank := Text.isBlank_of_isSpace space
  constructor
  · by_contra word
    rw [Text.isBlank_of_isWord (Bool.not_eq_false _ ▸ word)] at blank
    exact Bool.noConfusion blank
  · rintro rfl
    exact absurd blank (by decide)

theorem Blank.isClear_append (blank : Blank) {after : Text} (something : blank.text ≠ []) :
    IsClear (blank.text ++ after) := by
  intro character first
  rw [List.head?_append_of_ne_nil _ something] at first
  exact isGap_of_isSpace (blank.blank character (List.mem_of_head? first))

theorem Lexeme.text_ne_nil (lexeme : Lexeme) : lexeme.text ≠ [] := by
  cases lexeme with
  | name identifier | label identifier => simp [text, Identifier.text]
  | selected package before after identifier => simp [text]
  | rest identifier gap => simp [text]
  | literal value =>
      obtain ⟨first, others, split, -⟩ := value.begins
      simp [text, split]
  | word keyword => exact wordSpelling_ne_nil keyword
  | mark operator => exact spelling_ne_nil operator
  | receive gap => simp [text]
  | lineEnd => simp [text]

theorem isClear_of_apart {placed : Placed} {rest : List Placed}
    (apart : AreApart (placed :: rest)) (runsOn : placed.lexeme.runsOn = true) :
    IsClear (rest.flatMap Placed.text) := by
  cases rest with
  | nil => nofun
  | cons next rest =>
      have separate := apart.rel
      rw [List.flatMap_cons, Placed.text, List.append_assoc]
      by_cases none : next.gap.text = []
      · intro character first
        have follows := separate none
        rw [none, List.nil_append, List.head?_append_of_ne_nil _ next.lexeme.text_ne_nil] at first
        simp only [Lexeme.RunsInto, runsOn, true_and, Option.mem_def.mp first, Option.any_some,
          Bool.not_eq_true, Bool.or_eq_false_iff, beq_eq_false_iff_ne] at follows
        exact follows
      · exact next.gap.isClear_append none

end TypeSyntax

end Go

end Scaffold
