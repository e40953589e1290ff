import Scaffold.Contract.Basic
import Scaffold.Text.Blank
import Scaffold.Text.Word

/-!
# Parameter lists

A parameter list is a comma-separated list of types, or of names and types
where names without a type share the next type that follows.  Which of the two
it is depends on whether any entry has more than one word without being a type.
-/

namespace Scaffold

namespace Signature

/-- How a character changes the depth of nesting. -/
def depthChange (character : Char) : Int :=
  if ['(', '[', '\x7b'].contains character then 1
  else if [')', ']', '\x7d'].contains character then -1
  else 0

/-- Splits at the separators at depth zero, where a depth has been reached and
a piece has been begun. -/
def splitFrom (separator : Text) (depth : Int) (current : Text) : Text → List Text
  | [] => [current.reverse]
  | character :: rest =>
    let inner := depth + depthChange character
    if [character] = separator ∧ inner = 0 then
      current.reverse :: splitFrom separator inner [] rest
    else splitFrom separator inner (character :: current) rest

/-- The pieces between the separators that stand outside all brackets.  A
closing bracket without its opening one counts against a later opening one. -/
def splitTopLevel (separator text : Text) : List Text :=
  splitFrom separator 0 [] text

/-- The words and marks that only types begin with. -/
def typeBeginnings : List Text :=
  [['<', '-', 'c', 'h', 'a', 'n'], ['c', 'h', 'a', 'n'], ['f', 'u', 'n', 'c'],
    ['s', 't', 'r', 'u', 'c', 't'], ['i', 'n', 't', 'e', 'r', 'f', 'a', 'c', 'e'],
    ['m', 'a', 'p']]

/-- The entry begins with a word or mark that only types begin with. -/
def isTypeExpression (segment : Text) : Bool :=
  typeBeginnings.any fun beginning =>
    Text.startsWith beginning segment &&
      match segment.drop beginning.length with
      | [] => true
      | following :: _ => !Text.isWord following

/-- The name and the type of an entry that has both. -/
def named? (segment : Text) : Option (Text × Text) :=
  if isTypeExpression segment then none
  else (Text.firstWord? segment).map fun words => (words.1, Text.trim words.2)

/-- Names at the end of a list for which no type follows. -/
structure Untyped where
  source : Text
  names : List Text
  deriving Repr, DecidableEq

namespace Untyped

/-- The list and the names without a type. -/
def message (fault : Untyped) : Text :=
  "parameters without a type in (" ++ fault.source ++ "): " ++ Text.join ", " fault.names

end Untyped

/-- The list without the parentheses around it. -/
def inner (text : Text) : Text :=
  let trimmed := Text.trim text
  if Text.startsWith ['('] trimmed ∧ Text.endsWith [')'] trimmed then
    Text.dropLast 1 (trimmed.drop 1)
  else trimmed

/-- The entries of a list without its parentheses; the empty ones, such as one
behind a final comma, are left out. -/
def segments (list : Text) : List Text :=
  ((splitTopLevel [','] list).map Text.trim).filter fun segment => !segment.isEmpty

/-- Gives each entry a type, from the back: a name without a type takes the
type of the entry after it.  The answer is the names at the end that get none,
and the entries. -/
def assignTypes : List Text → List Text × List Parameter
  | [] => ([], [])
  | segment :: rest =>
    let (untyped, parameters) := assignTypes rest
    match named? segment with
    | some (name, type) => (untyped, ⟨name, type⟩ :: parameters)
    | none =>
      match parameters with
      | [] => (segment :: untyped, [])
      | next :: _ => (untyped, ⟨segment, next.type⟩ :: parameters)

def parse (text : Text) : Except Untyped (List Parameter) :=
  let list := inner text
  let entries := segments list
  if entries.any fun segment => (named? segment).isSome then
    match assignTypes entries with
    | ([], parameters) => .ok parameters
    | (untyped, _) => .error ⟨list, untyped⟩
  else .ok (entries.map fun segment => ⟨[], segment⟩)

end Signature

end Scaffold
