import Scaffold.Proofs.Go.Reading

/-!
# Reading goes by the kinds of tokens and their lines

Where a token stands and what separates it from the one before does not matter
to the grammar, except for a line break among it.  Two texts with the same
tokens up to that are read alike.
-/

namespace Scaffold

namespace Go

namespace Token

/-- What stands before a token, as far as the grammar is concerned. -/
def plainLead (breaks : Bool) : List Trivia :=
  if breaks then [.blank ['\n']] else []

/-- The token without its place. -/
def plain (token : Token) : Token :=
  { token with lead := plainLead token.onNewLine, start := 0 }

@[simp] theorem terminal_plain (token : Token) : token.plain.terminal = token.terminal := rfl

@[simp] theorem text_plain (token : Token) : token.plain.text = token.text := rfl

@[simp] theorem any_plainLead (breaks : Bool) :
    (plainLead breaks).any Trivia.breaksLine = breaks := by
  cases breaks <;> rfl

@[simp] theorem onNewLine_plain (token : Token) : token.plain.onNewLine = token.onNewLine :=
  any_plainLead token.onNewLine

end Token

namespace Tree

mutual

/-- The tree over the tokens without their places. -/
def plain : Tree → Tree
  | leaf token => leaf token.plain
  | node kind children => node kind (plainAll children)

def plainAll : List Tree → List Tree
  | [] => []
  | tree :: rest => tree.plain :: plainAll rest

end

@[simp] theorem plainAll_append (left right : List Tree) :
    plainAll (left ++ right) = plainAll left ++ plainAll right := by
  induction left with
  | nil => simp [plainAll]
  | cons tree rest induction => simp [plainAll, induction]

theorem plainAll_eq_map (trees : List Tree) : plainAll trees = trees.map plain := by
  induction trees with
  | nil => rfl
  | cons tree rest induction => rw [plainAll, induction, List.map_cons]

@[simp] theorem isA_plain (kind : Kind) (tree : Tree) : tree.plain.isA kind = tree.isA kind := by
  cases tree <;> rfl

mutual

theorem subtrees_plain : ∀ tree : Tree, tree.plain.subtrees = tree.subtrees.map plain
  | leaf token => rfl
  | node kind children => by
      rw [plain, subtrees, subtrees, List.map_cons, subtreesOfAll_plainAll children, plain]

theorem subtreesOfAll_plainAll :
    ∀ trees : List Tree, subtreesOfAll (plainAll trees) = (subtreesOfAll trees).map plain
  | [] => rfl
  | tree :: rest => by
      rw [plainAll, subtreesOfAll, subtreesOfAll, List.map_append, subtrees_plain tree,
        subtreesOfAll_plainAll rest]

end

end Tree

namespace Rule

variable {Name : Type} {grammar : Name → Rule Name}

/-- What is read from plain tokens is what is read from the tokens, made plain. -/
theorem read_plain :
    ∀ (fuel : Nat) (layout : Layout) (rule : Rule Name) (tokens : List Token),
      read grammar fuel layout rule (tokens.map Token.plain) =
        (read grammar fuel layout rule tokens).map fun found =>
          (Tree.plainAll found.1, found.2.map Token.plain) := by
  intro fuel
  induction fuel with
  | zero => intros; rfl
  | succ fuel induction =>
      intro layout rule tokens
      cases rule with
      | both first second =>
          rw [read, read, induction]
          cases read grammar fuel layout first tokens with
          | none => rfl
          | some front =>
              simp only [Option.map_some, induction]
              cases read grammar fuel layout second front.2 <;> simp
      | either first second =>
          rw [read, read, induction, induction]
          cases read grammar fuel layout first tokens <;> rfl
      | many item =>
          rw [read, read, induction]
          cases read grammar fuel layout item tokens with
          | none => rfl
          | some front =>
              simp only [Option.map_some, induction]
              cases read grammar fuel layout (many item) front.2 <;> simp
      | group kind body =>
          rw [read, read, induction]
          cases read grammar fuel layout body tokens <;> rfl
      | refer name => rw [read, read, induction]
      | under inner body => rw [read, read, induction]
      | ahead body =>
          rw [read, read, induction]
          cases read grammar fuel layout body tokens <;> rfl
      | empty => rfl
      | token terminal =>
          cases tokens with
          | nil => rfl
          | cons head rest =>
              by_cases fits : head.terminal = terminal <;> simp [read, fits, Tree.plainAll, Tree.plain]
      | notBefore terminal =>
          cases tokens with
          | nil => rfl
          | cons head rest =>
              by_cases fits : head.terminal = terminal <;> simp [read, fits, Tree.plainAll]
      | sameLine =>
          cases tokens with
          | nil => cases layout <;> rfl
          | cons head rest =>
              cases layout with
              | lines =>
                  cases breaks : head.onNewLine <;> simp [read, breaks, Tree.plainAll]
              | flowing => rfl
              | header => rfl
      | newLine =>
          cases tokens with
          | nil => rfl
          | cons head rest =>
              cases breaks : head.onNewLine <;> simp [read, breaks, Tree.plainAll]
      | outsideHeader => cases layout <;> rfl

end Rule

end Go

end Scaffold
