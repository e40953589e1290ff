import Mathlib.Data.List.Basic
import Scaffold.Go.SourceFile

/-!
# What reading gives

Reading a rule takes tokens from the left and puts each of them into a tree, so
the trees and what is left over are the tokens again.  Each construct in the
trees was read by the body of a group of the grammar.
-/

namespace Scaffold

namespace Go

namespace Tree

theorem tokensOfAll_append (left right : List Tree) :
    tokensOfAll (left ++ right) = tokensOfAll left ++ tokensOfAll right := by
  induction left with
  | nil => simp [tokensOfAll]
  | cons tree rest induction => simp [tokensOfAll, induction]

theorem subtreesOfAll_append (left right : List Tree) :
    subtreesOfAll (left ++ right) = subtreesOfAll left ++ subtreesOfAll right := by
  induction left with
  | nil => simp [subtreesOfAll]
  | cons tree rest induction => simp [subtreesOfAll, induction]

theorem mem_subtreesOfAll {tree : Tree} {trees : List Tree} :
    tree ∈ subtreesOfAll trees ↔ ∃ item ∈ trees, tree ∈ item.subtrees := by
  induction trees with
  | nil => simp [subtreesOfAll]
  | cons first rest induction => simp [subtreesOfAll, induction]

theorem mem_subtrees_self (tree : Tree) : tree ∈ tree.subtrees := by
  cases tree <;> simp [subtrees]

mutual

/-- The parts of a construct inside a tree are inside the tree. -/
theorem children_mem_subtrees {kind : Kind} {children : List Tree} {part : Tree}
    (member : part ∈ children) :
    ∀ tree : Tree, node kind children ∈ tree.subtrees → part ∈ tree.subtrees
  | leaf token => by simp [subtrees]
  | node outer trees => by
      intro inside
      rw [subtrees, List.mem_cons] at inside ⊢
      right
      cases inside with
      | inl same =>
          obtain ⟨_, rfl⟩ := node.inj same
          exact mem_subtreesOfAll.mpr ⟨part, member, mem_subtrees_self part⟩
      | inr deeper => exact children_mem_subtreesOfAll member trees deeper

theorem children_mem_subtreesOfAll {kind : Kind} {children : List Tree} {part : Tree}
    (member : part ∈ children) :
    ∀ trees : List Tree, node kind children ∈ subtreesOfAll trees → part ∈ subtreesOfAll trees
  | [] => by simp [subtreesOfAll]
  | tree :: rest => by
      intro inside
      rw [subtreesOfAll, List.mem_append] at inside ⊢
      cases inside with
      | inl here => exact .inl (children_mem_subtrees member tree here)
      | inr later => exact .inr (children_mem_subtreesOfAll member rest later)

end

mutual

/-- The tokens of a construct inside a tree follow each other in the tree. -/
theorem tokens_infix_of_mem_subtrees {part : Tree} :
    ∀ tree : Tree, part ∈ tree.subtrees → part.tokens <:+: tree.tokens
  | leaf token => by
      intro inside
      rw [subtrees, List.mem_singleton] at inside
      exact inside ▸ List.infix_rfl
  | node kind children => by
      intro inside
      rw [subtrees, List.mem_cons] at inside
      cases inside with
      | inl same => exact same ▸ List.infix_rfl
      | inr deeper =>
          rw [show (node kind children).tokens = tokensOfAll children by rw [tokens]]
          exact tokens_infix_of_mem_subtreesOfAll children deeper

theorem tokens_infix_of_mem_subtreesOfAll {part : Tree} :
    ∀ trees : List Tree, part ∈ subtreesOfAll trees → part.tokens <:+: tokensOfAll trees
  | [] => by simp [subtreesOfAll]
  | tree :: rest => by
      intro inside
      rw [subtreesOfAll, List.mem_append] at inside
      rw [tokensOfAll]
      cases inside with
      | inl here =>
          exact (tokens_infix_of_mem_subtrees tree here).trans List.infix_append_left
      | inr later =>
          exact (tokens_infix_of_mem_subtreesOfAll rest later).trans List.infix_append_right

end

theorem tokens_subset_of_mem_subtreesOfAll {part : Tree} (trees : List Tree)
    (inside : part ∈ subtreesOfAll trees) : part.tokens ⊆ tokensOfAll trees :=
  (tokens_infix_of_mem_subtreesOfAll trees inside).subset

end Tree

namespace Rule

deriving instance DecidableEq for Rule

variable {Name : Type} {grammar : Name → Rule Name}

/-- Two rules one after the other. -/
theorem read_both_eq_some {fuel : Nat} {layout : Layout} {first second : Rule Name}
    {tokens rest : List Token} {trees : List Tree} :
    read grammar (fuel + 1) layout (both first second) tokens = some (trees, rest) ↔
      ∃ front middle back, read grammar fuel layout first tokens = some (front, middle) ∧
        read grammar fuel layout second middle = some (back, rest) ∧ trees = front ++ back := by
  simp only [read]
  cases start : read grammar fuel layout first tokens with
  | none => simp
  | some one =>
      obtain ⟨front, middle⟩ := one
      simp only [Option.some.injEq, Prod.mk.injEq]
      cases next : read grammar fuel layout second middle with
      | none => simp [next]
      | some two =>
          obtain ⟨back, last⟩ := two
          constructor
          · intro same
            simp only [Option.some.injEq, Prod.mk.injEq] at same
            exact ⟨front, middle, back, ⟨rfl, rfl⟩, by rw [next, same.2], same.1.symm⟩
          · rintro ⟨_, _, other, ⟨rfl, rfl⟩, found, rfl⟩
            rw [next, Option.some.injEq, Prod.mk.injEq] at found
            simp [found.1, found.2]

theorem read_token_eq_some {fuel : Nat} {layout : Layout} {terminal : Terminal}
    {tokens rest : List Token} {trees : List Tree} :
    read grammar (fuel + 1) layout (token terminal) tokens = some (trees, rest) ↔
      ∃ head, tokens = head :: rest ∧ head.terminal = terminal ∧ trees = [.leaf head] := by
  cases tokens with
  | nil => simp [read]
  | cons head others =>
      simp only [read]
      constructor
      · intro result
        split at result
        · rename_i same
          simp only [Option.some.injEq, Prod.mk.injEq] at result
          exact ⟨head, by rw [result.2], same, result.1.symm⟩
        · simp at result
      · rintro ⟨_, same, fits, rfl⟩
        obtain ⟨rfl, rfl⟩ := List.cons.inj same
        simp [fits]

/-- The rule only looks at what comes next. -/
def onlyLooks : Rule Name → Bool
  | empty | ahead _ | notBefore _ | sameLine | newLine | outsideHeader => true
  | _ => false

theorem eq_nil_of_read {fuel : Nat} {layout : Layout} {rule : Rule Name}
    {tokens rest : List Token} {trees : List Tree} (looks : rule.onlyLooks = true)
    (result : read grammar fuel layout rule tokens = some (trees, rest)) :
    trees = [] ∧ rest = tokens := by
  cases fuel with
  | zero => simp [read] at result
  | succ fuel =>
      cases rule with
      | empty => simp_all [read]
      | ahead body =>
          simp only [read] at result
          cases inner : read grammar fuel layout body tokens <;> simp_all
      | notBefore terminal =>
          cases tokens with
          | nil => simp_all [read]
          | cons head others =>
              simp only [read] at result
              split at result <;> simp_all
      | sameLine =>
          cases tokens with
          | nil => cases layout <;> simp_all [read]
          | cons head others =>
              cases layout <;> simp only [read] at result <;> try split at result
              all_goals simp_all
      | newLine =>
          cases tokens with
          | nil => simp [read] at result
          | cons head others =>
              simp only [read] at result
              split at result <;> simp_all
      | outsideHeader => cases layout <;> simp_all [read]
      | token | both | either | many | group | refer | under => simp [onlyLooks] at looks

/-- The trees of a reading with what it left over hold the tokens that were
read. -/
theorem tokens_of_read :
    ∀ (fuel : Nat) {layout : Layout} {rule : Rule Name} {tokens rest : List Token}
      {trees : List Tree}, read grammar fuel layout rule tokens = some (trees, rest) →
        Tree.tokensOfAll trees ++ rest = tokens := by
  intro fuel
  induction fuel with
  | zero => simp [read]
  | succ fuel induction =>
      intro layout rule tokens rest trees result
      cases rule with
      | both first second =>
          obtain ⟨front, middle, back, one, two, rfl⟩ := read_both_eq_some.mp result
          rw [Tree.tokensOfAll_append, List.append_assoc, induction two, induction one]
      | either first second =>
          rw [read] at result
          split at result
          · exact induction result
          · rename_i found one
            rw [result] at one
            exact induction one
      | many item =>
          rw [read] at result
          split at result
          · simp only [Option.some.injEq, Prod.mk.injEq] at result
            simp [← result.1, ← result.2, Tree.tokensOfAll]
          · rename_i front middle one
            split at result
            · simp at result
            · rename_i back last two
              simp only [Option.some.injEq, Prod.mk.injEq] at result
              rw [← result.1, ← result.2, Tree.tokensOfAll_append, List.append_assoc,
                induction two, induction one]
      | group kind body =>
          rw [read] at result
          split at result
          · simp at result
          · rename_i children last one
            simp only [Option.some.injEq, Prod.mk.injEq] at result
            have inner := induction one
            rw [← result.1, ← result.2]
            simpa [Tree.tokensOfAll, Tree.tokens] using inner
      | refer name => exact induction (by rwa [read] at result)
      | under inner body => exact induction (by rwa [read] at result)
      | token terminal =>
          obtain ⟨head, rfl, _, rfl⟩ := read_token_eq_some.mp result
          simp [Tree.tokensOfAll, Tree.tokens]
      | empty | ahead | notBefore | sameLine | newLine | outsideHeader =>
          obtain ⟨rfl, rfl⟩ := eq_nil_of_read rfl result
          simp [Tree.tokensOfAll]

/-- The groups that a rule writes out, with their bodies. -/
def groups : Rule Name → List (Kind × Rule Name)
  | both first second => groups first ++ groups second
  | either first second => groups first ++ groups second
  | many item => groups item
  | group kind body => (kind, body) :: groups body
  | under _ body => groups body
  | ahead body => groups body
  | _ => []

/-- A construct that a group of the grammar read. -/
def IsReadBy (grammar : Name → Rule Name) (bodies : Kind → Rule Name → Prop) (kind : Kind)
    (children : List Tree) : Prop :=
  ∃ body, bodies kind body ∧ ∃ fuel layout tokens rest,
    read grammar fuel layout body tokens = some (children, rest)

/-- Every construct in the trees of a reading was read by the body of a group,
if all groups of the rule and of the grammar are known. -/
theorem isReadBy_of_read (bodies : Kind → Rule Name → Prop)
    (known : ∀ name, ∀ entry ∈ groups (grammar name), bodies entry.1 entry.2) :
    ∀ (fuel : Nat) {layout : Layout} {rule : Rule Name} {tokens rest : List Token}
      {trees : List Tree}, (∀ entry ∈ groups rule, bodies entry.1 entry.2) →
        read grammar fuel layout rule tokens = some (trees, rest) →
        ∀ kind children, Tree.node kind children ∈ Tree.subtreesOfAll trees →
          IsReadBy grammar bodies kind children := by
  intro fuel
  induction fuel with
  | zero => simp [read]
  | succ fuel induction =>
      intro layout rule tokens rest trees own result kind children inside
      cases rule with
      | both first second =>
          obtain ⟨front, middle, back, one, two, rfl⟩ := read_both_eq_some.mp result
          rw [Tree.subtreesOfAll_append, List.mem_append] at inside
          cases inside with
          | inl here =>
              exact induction (fun entry member => own entry (by simp [groups, member])) one
                kind children here
          | inr there =>
              exact induction (fun entry member => own entry (by simp [groups, member])) two
                kind children there
      | either first second =>
          rw [read] at result
          split at result
          · exact induction (fun entry member => own entry (by simp [groups, member])) result
              kind children inside
          · rename_i found one
            rw [result] at one
            exact induction (fun entry member => own entry (by simp [groups, member])) one
              kind children inside
      | many item =>
          rw [read] at result
          split at result
          · simp only [Option.some.injEq, Prod.mk.injEq] at result
            simp [← result.1, Tree.subtreesOfAll] at inside
          · rename_i front middle one
            split at result
            · simp at result
            · rename_i back last two
              simp only [Option.some.injEq, Prod.mk.injEq] at result
              rw [← result.1, Tree.subtreesOfAll_append, List.mem_append] at inside
              cases inside with
              | inl here =>
                  exact induction (fun entry member => own entry (by simpa [groups] using member))
                    one kind children here
              | inr there => exact induction own two kind children there
      | group outer body =>
          rw [read] at result
          split at result
          · simp at result
          · rename_i parts last one
            simp only [Option.some.injEq, Prod.mk.injEq] at result
            rw [← result.1] at inside
            simp only [Tree.subtreesOfAll, Tree.subtrees, List.append_nil, List.mem_cons] at inside
            cases inside with
            | inl same =>
                obtain ⟨rfl, rfl⟩ := Tree.node.inj same
                exact ⟨body, own (kind, body) (by simp [groups]), fuel, layout, tokens, last, one⟩
            | inr deeper =>
                exact induction (fun entry member => own entry (by simp [groups, member])) one
                  kind children deeper
      | refer name => exact induction (known name) (by rwa [read] at result) kind children inside
      | under inner body =>
          rw [read] at result
          exact induction (fun entry member => own entry (by simpa [groups] using member)) result
            kind children inside
      | token terminal =>
          obtain ⟨head, rfl, _, rfl⟩ := read_token_eq_some.mp result
          simp [Tree.subtreesOfAll, Tree.subtrees] at inside
      | empty | ahead | notBefore | sameLine | newLine | outsideHeader =>
          obtain ⟨rfl, rfl⟩ := eq_nil_of_read rfl result
          simp [Tree.subtreesOfAll] at inside

end Rule

end Go

end Scaffold
