import Scaffold.Proofs.Go.Reading

/-!
# How deep the reading of a rule goes

A rule is read with fuel that bounds the depth of the reading.  In a grammar
without left recursion the depth between two tokens is bounded, so the fuel that
a file is read with is always enough: with more of it nothing else is read.
-/

namespace Scaffold

namespace Go

namespace Rule

variable {Name : Type}

/-- The rule takes a token whenever it fits, if the named rules do so as told. -/
def takes (sure : Name → Bool) : Rule Name → Bool
  | token _ => true
  | both first second => takes sure first || takes sure second
  | either first second => takes sure first && takes sure second
  | group _ body => takes sure body
  | refer name => sure name
  | under _ body => takes sure body
  | _ => false

/-- How deep the reading goes before the rule has taken a token, if the named
rules go as deep as told. -/
def depth (sure : Name → Bool) (height : Name → Nat) : Rule Name → Nat
  | both first second =>
    1 + max (depth sure height first) (if takes sure first then 0 else depth sure height second)
  | either first second => 1 + max (depth sure height first) (depth sure height second)
  | many item => 1 + depth sure height item
  | group _ body => 1 + depth sure height body
  | refer name => height name
  | under _ body => 1 + depth sure height body
  | ahead body => 1 + depth sure height body
  | _ => 1

/-- How deep any part of a rule may go before it has taken a token. -/
def depthLimit : Nat :=
  128

/-- No part of the rule goes too deep, and whatever is repeated takes a token. -/
def isWithin (sure : Name → Bool) (height : Name → Nat) : Rule Name → Bool
  | both first second =>
    isWithin sure height first && isWithin sure height second &&
      decide (depth sure height (both first second) ≤ depthLimit)
  | either first second =>
    isWithin sure height first && isWithin sure height second &&
      decide (depth sure height (either first second) ≤ depthLimit)
  | many item =>
    isWithin sure height item && takes sure item &&
      decide (depth sure height (many item) ≤ depthLimit)
  | group kind body =>
    isWithin sure height body && decide (depth sure height (group kind body) ≤ depthLimit)
  | refer name => decide (height name ≤ depthLimit)
  | under layout body =>
    isWithin sure height body && decide (depth sure height (under layout body) ≤ depthLimit)
  | ahead body => isWithin sure height body && decide (depth sure height (ahead body) ≤ depthLimit)
  | _ => true

/-- What is told of the named rules of a grammar holds. -/
structure IsBounded (grammar : Name → Rule Name) (sure : Name → Bool) (height : Name → Nat) :
    Prop where
  takes : ∀ name, sure name = true → takes sure (grammar name) = true
  depth : ∀ name, depth sure height (grammar name) < height name
  within : ∀ name, isWithin sure height (grammar name) = true

variable {grammar : Name → Rule Name} {sure : Name → Bool} {height : Name → Nat}

theorem depth_le_of_isWithin {rule : Rule Name} (within : isWithin sure height rule = true) :
    depth sure height rule ≤ depthLimit := by
  cases rule with
  | both | either | many | group | refer | under | ahead =>
      simp only [isWithin, Bool.and_eq_true, decide_eq_true_eq] at within
      first
        | exact within.2
        | exact within
  | empty | token | notBefore | sameLine | newLine | outsideHeader =>
      simp [depth, depthLimit]

theorem length_le_of_read {fuel : Nat} {layout : Layout} {rule : Rule Name}
    {tokens rest : List Token} {trees : List Tree}
    (result : read grammar fuel layout rule tokens = some (trees, rest)) :
    rest.length ≤ tokens.length := by
  have whole := congrArg List.length (tokens_of_read fuel result)
  rw [List.length_append] at whole
  omega

/-- A rule that takes a token leaves fewer tokens. -/
theorem length_lt_of_takes (bounded : IsBounded grammar sure height) :
    ∀ (fuel : Nat) {layout : Layout} {rule : Rule Name} {tokens rest : List Token}
      {trees : List Tree}, rule.takes sure = true →
        read grammar fuel layout rule tokens = some (trees, rest) →
          rest.length < tokens.length := by
  intro fuel
  induction fuel with
  | zero => simp [read]
  | succ fuel induction =>
      intro layout rule tokens rest trees sureTakes result
      cases rule with
      | both first second =>
          obtain ⟨front, middle, back, one, two, rfl⟩ := read_both_eq_some.mp result
          have shorter := length_le_of_read one
          have later := length_le_of_read two
          rw [takes, Bool.or_eq_true] at sureTakes
          cases sureTakes with
          | inl start =>
              have less := induction start one
              omega
          | inr behind =>
              have less := induction behind two
              omega
      | either first second =>
          rw [takes, Bool.and_eq_true] at sureTakes
          rw [read] at result
          split at result
          · exact induction sureTakes.2 result
          · rename_i found one
            rw [result] at one
            exact induction sureTakes.1 one
      | group kind body =>
          rw [read] at result
          split at result
          · simp at result
          · rename_i children last one
            simp only [Option.some.injEq, Prod.mk.injEq] at result
            rw [← result.2]
            exact induction (by rwa [takes] at sureTakes) one
      | refer name =>
          rw [read] at result
          exact induction (bounded.takes name (by rwa [takes] at sureTakes)) result
      | under inner body =>
          rw [read] at result
          exact induction (by rwa [takes] at sureTakes) result
      | token terminal =>
          obtain ⟨head, rfl, _, _⟩ := read_token_eq_some.mp result
          simp
      | empty | many | ahead | notBefore | sameLine | newLine | outsideHeader =>
          simp [takes] at sureTakes

/-- With enough fuel one more changes nothing. -/
theorem read_succ (bounded : IsBounded grammar sure height) :
    ∀ (fuel : Nat) {layout : Layout} {rule : Rule Name} {tokens : List Token},
      rule.isWithin sure height = true →
      256 * tokens.length + rule.depth sure height ≤ fuel →
        read grammar (fuel + 1) layout rule tokens = read grammar fuel layout rule tokens := by
  intro fuel
  induction fuel with
  | zero =>
      intro layout rule tokens within enough
      cases rule with
      | refer name =>
          have deep := bounded.depth name
          simp only [depth] at enough
          omega
      | _ => simp [depth] at enough
  | succ fuel induction =>
      intro layout rule tokens within enough
      cases rule with
      | both first second =>
          simp only [isWithin, Bool.and_eq_true, decide_eq_true_eq] at within
          obtain ⟨⟨firstWithin, secondWithin⟩, _⟩ := within
          rw [depth] at enough
          have start : read grammar (fuel + 1) layout first tokens =
              read grammar fuel layout first tokens := by
            apply induction firstWithin
            omega
          rw [read, read, start]
          cases one : read grammar fuel layout first tokens with
          | none => rfl
          | some found =>
              obtain ⟨front, middle⟩ := found
              have behind : read grammar (fuel + 1) layout second middle =
                  read grammar fuel layout second middle := by
                apply induction secondWithin
                have shorter := length_le_of_read one
                have deep := depth_le_of_isWithin secondWithin
                by_cases sureTakes : first.takes sure = true
                · have less := length_lt_of_takes bounded fuel sureTakes one
                  simp only [depthLimit] at deep
                  omega
                · rw [if_neg sureTakes] at enough
                  omega
              simp only [behind]
      | either first second =>
          simp only [isWithin, Bool.and_eq_true, decide_eq_true_eq] at within
          obtain ⟨⟨firstWithin, secondWithin⟩, _⟩ := within
          rw [depth] at enough
          have start : read grammar (fuel + 1) layout first tokens =
              read grammar fuel layout first tokens := by
            apply induction firstWithin
            omega
          have other : read grammar (fuel + 1) layout second tokens =
              read grammar fuel layout second tokens := by
            apply induction secondWithin
            omega
          rw [read, read, start, other]
      | many item =>
          have whole := within
          simp only [isWithin, Bool.and_eq_true, decide_eq_true_eq] at within
          obtain ⟨⟨itemWithin, itemTakes⟩, limit⟩ := within
          rw [depth] at enough limit
          have start : read grammar (fuel + 1) layout item tokens =
              read grammar fuel layout item tokens := by
            apply induction itemWithin
            omega
          rw [read, read, start]
          cases one : read grammar fuel layout item tokens with
          | none => rfl
          | some found =>
              obtain ⟨front, middle⟩ := found
              have behind : read grammar (fuel + 1) layout (many item) middle =
                  read grammar fuel layout (many item) middle := by
                apply induction whole
                have less := length_lt_of_takes bounded fuel itemTakes one
                rw [depth]
                simp only [depthLimit] at limit
                omega
              simp only [behind]
      | group kind body =>
          simp only [isWithin, Bool.and_eq_true, decide_eq_true_eq] at within
          rw [depth] at enough
          have inner : read grammar (fuel + 1) layout body tokens =
              read grammar fuel layout body tokens := by
            apply induction within.1
            omega
          rw [read, read, inner]
      | refer name =>
          have deep := bounded.depth name
          rw [depth] at enough
          rw [read, read]
          apply induction (bounded.within name)
          omega
      | under inner body =>
          simp only [isWithin, Bool.and_eq_true, decide_eq_true_eq] at within
          rw [depth] at enough
          rw [read, read]
          apply induction within.1
          omega
      | ahead body =>
          simp only [isWithin, Bool.and_eq_true, decide_eq_true_eq] at within
          rw [depth] at enough
          have inner : read grammar (fuel + 1) layout body tokens =
              read grammar fuel layout body tokens := by
            apply induction within.1
            omega
          rw [read, read, inner]
      | empty | token | notBefore | sameLine | newLine | outsideHeader => rfl

theorem read_of_le (bounded : IsBounded grammar sure height) {fuel more : Nat} {layout : Layout}
    {rule : Rule Name} {tokens : List Token} (within : rule.isWithin sure height = true)
    (enough : 256 * tokens.length + rule.depth sure height ≤ fuel) (less : fuel ≤ more) :
    read grammar more layout rule tokens = read grammar fuel layout rule tokens := by
  induction less with
  | refl => rfl
  | step below induction =>
      rw [← induction]
      apply read_succ bounded _ within
      have order := Nat.le_trans enough below
      omega

end Rule

/-! ## Go source -/

namespace Grammar

open Rule

/-- All phrases take a token, except the body of a case, which may be empty. -/
def sure : Phrase → Bool
  | .caseBody => false
  | _ => true

/-- A bound on how deep a phrase goes before it has taken a token. -/
def height : Phrase → Nat
  | .typePhrase => 14
  | .simpleType => 13
  | .namedType => 4
  | .typeArguments => 3
  | .typeElement => 16
  | .literalType => 7
  | .parameters => 4
  | .parameter => 19
  | .result => 16
  | .typeParameters => 3
  | .typeSpec => 7
  | .constSpec => 5
  | .varSpec => 5
  | .valuedConstSpec => 5
  | .valuedVarSpec => 6
  | .importSpec => 8
  | .closableDeclaration => 43
  | .topLevel => 48
  | .block => 4
  | .statements => 49
  | .statement => 44
  | .plainStatement => 40
  | .simple => 23
  | .expressions => 22
  | .expression => 20
  | .unary => 18
  | .operand => 15
  | .suffix => 7
  | .arguments => 3
  | .literalValue => 3
  | .ifStatement => 4
  | .caseBody => 51

theorem isBounded_table : IsBounded table sure height where
  takes name told := by
    cases name <;> first | rfl | exact absurd told (by decide)
  depth name := by cases name <;> decide
  within name := by cases name <;> decide

/-- A rule of bounded depth. -/
def IsWithin (rule : Rule Phrase) : Prop :=
  rule.isWithin sure height = true

instance (rule : Rule Phrase) : Decidable (IsWithin rule) :=
  inferInstanceAs (Decidable (_ = _))

/-- Reads a rule with fuel enough for any number of tokens. -/
def parse (layout : Layout) (rule : Rule Phrase) (tokens : List Token) :
    Option (List Tree × List Token) :=
  read table (SourceFile.depthBound tokens.length) layout rule tokens

theorem read_eq_parse {fuel : Nat} {layout : Layout} {rule : Rule Phrase} {tokens : List Token}
    (within : IsWithin rule) (enough : 256 * tokens.length + depthLimit ≤ fuel) :
    read table fuel layout rule tokens = parse layout rule tokens := by
  have deep := depth_le_of_isWithin within
  have bound : 256 * tokens.length + depthLimit ≤ SourceFile.depthBound tokens.length := by
    simp only [SourceFile.depthBound, depthLimit]
    omega
  have least {more : Nat} (less : 256 * tokens.length + depthLimit ≤ more) :
      read table more layout rule tokens =
        read table (256 * tokens.length + depthLimit) layout rule tokens :=
    read_of_le isBounded_table within (Nat.add_le_add_left deep _) less
  rw [parse, least enough, least bound]

private theorem exists_fuel (tokens : List Token) :
    ∃ fuel, SourceFile.depthBound tokens.length = fuel + 1 ∧
      256 * tokens.length + depthLimit ≤ fuel :=
  ⟨256 * tokens.length + 255, by simp only [SourceFile.depthBound]; omega,
    by simp only [depthLimit]; omega⟩

variable {layout : Layout} {rule first second item body : Rule Phrase} {tokens : List Token}

theorem length_le_of_parse {rest : List Token} {trees : List Tree}
    (result : parse layout rule tokens = some (trees, rest)) : rest.length ≤ tokens.length :=
  length_le_of_read result

@[simp] theorem parse_empty : parse layout empty tokens = some ([], tokens) := rfl

@[simp] theorem parse_token_nil {terminal : Terminal} :
    parse layout (token terminal) [] = none := rfl

theorem parse_token_cons {terminal : Terminal} {head : Token} :
    parse layout (token terminal) (head :: tokens) =
      if head.terminal = terminal then some ([.leaf head], tokens) else none := rfl

theorem parse_newLine_cons {head : Token} :
    parse layout newLine (head :: tokens) =
      if head.onNewLine then some ([], head :: tokens) else none := rfl

theorem parse_both (within : IsWithin (both first second)) :
    parse layout (both first second) tokens =
      (parse layout first tokens).bind fun front =>
        (parse layout second front.2).map fun back => (front.1 ++ back.1, back.2) := by
  simp only [IsWithin, isWithin, Bool.and_eq_true] at within
  obtain ⟨fuel, bound, enough⟩ := exists_fuel tokens
  rw [parse, bound, Rule.read, read_eq_parse within.1.1 enough]
  cases one : parse layout first tokens with
  | none => rfl
  | some front =>
      have shorter := length_le_of_parse one
      have still : 256 * front.2.length + depthLimit ≤ fuel := by omega
      simp only [read_eq_parse within.1.2 still, Option.bind_some]
      cases parse layout second front.2 <;> rfl

theorem parse_either (within : IsWithin (either first second)) :
    parse layout (either first second) tokens =
      (parse layout first tokens).or (parse layout second tokens) := by
  simp only [IsWithin, isWithin, Bool.and_eq_true] at within
  obtain ⟨fuel, bound, enough⟩ := exists_fuel tokens
  rw [parse, bound, Rule.read, read_eq_parse within.1.1 enough, read_eq_parse within.1.2 enough]
  cases parse layout first tokens <;> rfl

theorem parse_many (within : IsWithin (many item)) :
    parse layout (many item) tokens =
      match parse layout item tokens with
      | none => some ([], tokens)
      | some front =>
        (parse layout (many item) front.2).map fun back => (front.1 ++ back.1, back.2) := by
  have inner := within
  simp only [IsWithin, isWithin, Bool.and_eq_true] at inner
  obtain ⟨fuel, bound, enough⟩ := exists_fuel tokens
  rw [parse, bound, Rule.read, read_eq_parse inner.1.1 enough]
  cases one : parse layout item tokens with
  | none => rfl
  | some front =>
      have shorter := length_le_of_parse one
      have still : 256 * front.2.length + depthLimit ≤ fuel := by omega
      simp only [read_eq_parse within still]
      cases parse layout (many item) front.2 <;> rfl

theorem parse_group {kind : Kind} (within : IsWithin (group kind body)) :
    parse layout (group kind body) tokens =
      (parse layout body tokens).map fun found => ([.node kind found.1], found.2) := by
  simp only [IsWithin, isWithin, Bool.and_eq_true] at within
  obtain ⟨fuel, bound, enough⟩ := exists_fuel tokens
  rw [parse, bound, Rule.read, read_eq_parse within.1 enough]
  cases parse layout body tokens <;> rfl

theorem parse_refer {name : Phrase} :
    parse layout (refer name) tokens = parse layout (table name) tokens := by
  obtain ⟨fuel, bound, enough⟩ := exists_fuel tokens
  rw [parse, bound, Rule.read, read_eq_parse (isBounded_table.within name) enough]

theorem parse_under {inner : Layout} (within : IsWithin (under inner body)) :
    parse layout (under inner body) tokens = parse inner body tokens := by
  simp only [IsWithin, isWithin, Bool.and_eq_true] at within
  obtain ⟨fuel, bound, enough⟩ := exists_fuel tokens
  rw [parse, bound, Rule.read, read_eq_parse within.1 enough]

theorem parse_ahead (within : IsWithin (ahead body)) :
    parse layout (ahead body) tokens =
      (parse layout body tokens).map fun _ => ([], tokens) := by
  simp only [IsWithin, isWithin, Bool.and_eq_true] at within
  obtain ⟨fuel, bound, enough⟩ := exists_fuel tokens
  rw [parse, bound, Rule.read, read_eq_parse within.1 enough]
  cases parse layout body tokens <;> rfl

end Grammar

end Go

end Scaffold
