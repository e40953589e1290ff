import Scaffold.Go.Tree

/-!
# Grammar rules and how they are read

A grammar is a table of rules.  Reading a rule consumes tokens from the left
with ordered choice and greedy repetition and answers with the trees it built
and the tokens left over.

Line breaks are not tokens.  Where lines matter, a construct that could end is
ended by a line break; elsewhere line breaks are skipped.  A rule therefore asks
for its continuation to stand on the same line wherever the construct could end
before it.
-/

namespace Scaffold

namespace Go

/-- How line breaks and braces are read. -/
inductive Layout where
  /-- Line breaks end constructs. -/
  | lines
  /-- Line breaks are skipped. -/
  | flowing
  /-- Line breaks are skipped, and a brace after a type name opens a block. -/
  | header
  deriving Repr, DecidableEq

/-- A rule over a set of names for further rules. -/
inductive Rule (Name : Type) where
  /-- Nothing. -/
  | empty
  /-- One token. -/
  | token (terminal : Terminal)
  /-- One rule after the other. -/
  | both (first second : Rule Name)
  /-- The first rule, or the second one where the first does not fit. -/
  | either (first second : Rule Name)
  /-- As many repetitions as possible. -/
  | many (item : Rule Name)
  /-- A construct. -/
  | group (kind : Kind) (body : Rule Name)
  /-- The rule of a name. -/
  | refer (name : Name)
  /-- A rule under a layout. -/
  | under (layout : Layout) (body : Rule Name)
  /-- Fits here without being consumed. -/
  | ahead (body : Rule Name)
  /-- The next token is another one. -/
  | notBefore (terminal : Terminal)
  /-- The next token continues the line, as far as lines matter. -/
  | sameLine
  /-- The next token stands on a new line. -/
  | newLine
  /-- A brace would not open a block here. -/
  | outsideHeader

namespace Rule

variable {Name : Type}

def seq : List (Rule Name) → Rule Name
  | [] => empty
  | [rule] => rule
  | rule :: next :: rest => both rule (seq (next :: rest))

/-- The first of the rules that fits. -/
def first : List (Rule Name) → Rule Name
  | [] => empty
  | [rule] => rule
  | rule :: next :: rest => either rule (first (next :: rest))

def maybe (rule : Rule Name) : Rule Name :=
  either rule empty

/-- The rule once or more often, each time after the first behind a separator. -/
def separated (separator item : Rule Name) : Rule Name :=
  both item (many (both separator item))

/-- Reads a rule.  The fuel bounds the depth of the reading; where it runs out,
nothing fits. -/
def read (grammar : Name → Rule Name) :
    Nat → Layout → Rule Name → List Token → Option (List Tree × List Token)
  | 0, _, _, _ => none
  | fuel + 1, layout, rule, tokens =>
    match rule with
    | empty => some ([], tokens)
    | token terminal =>
      match tokens with
      | [] => none
      | head :: rest => if head.terminal = terminal then some ([.leaf head], rest) else none
    | both first second =>
      match read grammar fuel layout first tokens with
      | none => none
      | some (front, middle) =>
        match read grammar fuel layout second middle with
        | none => none
        | some (back, rest) => some (front ++ back, rest)
    | either first second =>
      match read grammar fuel layout first tokens with
      | none => read grammar fuel layout second tokens
      | some found => some found
    | many item =>
      match read grammar fuel layout item tokens with
      | none => some ([], tokens)
      | some (front, middle) =>
        match read grammar fuel layout (many item) middle with
        | none => none
        | some (back, rest) => some (front ++ back, rest)
    | group kind body =>
      match read grammar fuel layout body tokens with
      | none => none
      | some (children, rest) => some ([.node kind children], rest)
    | refer name => read grammar fuel layout (grammar name) tokens
    | under inner body => read grammar fuel inner body tokens
    | ahead body =>
      match read grammar fuel layout body tokens with
      | none => none
      | some _ => some ([], tokens)
    | notBefore terminal =>
      match tokens with
      | [] => some ([], tokens)
      | head :: _ => if head.terminal = terminal then none else some ([], tokens)
    | sameLine =>
      match layout, tokens with
      | .lines, head :: _ => if head.onNewLine then none else some ([], tokens)
      | _, _ => some ([], tokens)
    | newLine =>
      match tokens with
      | head :: _ => if head.onNewLine then some ([], tokens) else none
      | [] => none
    | outsideHeader =>
      match layout with
      | .header => none
      | _ => some ([], tokens)

end Rule

end Go

end Scaffold
