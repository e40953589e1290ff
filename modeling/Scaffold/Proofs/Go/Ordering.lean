import Mathlib.Data.List.Flatten
import Mathlib.Data.List.Pairwise
import Scaffold.Proofs.Go.Positions
import Scaffold.Proofs.Go.Reading

/-!
# Trees in the order of the source

The tokens of a source ascend.  Trees that share no token and stand in the order
of their tokens start one after the other, and so do parts taken from them in
this order.
-/

namespace Scaffold

namespace Go

/-- Every token starts before those behind it. -/
def Ascends (tokens : List Token) : Prop :=
  tokens.Pairwise fun left right => left.start < right.start

theorem ascends_of_tokens? {source : Text} {tokens : List Token}
    (cut : tokens? source = some tokens) : Ascends tokens := by
  have behind : ∀ post front, tokens = front ++ post → Ascends post := by
    intro post
    induction post with
    | nil => exact fun _ _ => List.Pairwise.nil
    | cons token post induction =>
        intro front same
        refine List.Pairwise.cons (fun later member => ?_)
          (induction (front ++ [token]) (by rw [same, List.append_cons]))
        obtain ⟨between, last, rfl⟩ := List.append_of_mem member
        have first := place_of_tokens? (same ▸ cut)
        have second : tokens = (front ++ token :: between) ++ later :: last := by
          rw [same, List.append_assoc, List.cons_append]
        have text : 0 < token.text.length :=
          List.length_pos_of_ne_nil (first.2 (by simp))
        rw [first.1, (place_of_tokens? (second ▸ cut)).1]
        simp only [List.length_append, List.flatMap_append, List.flatMap_cons, Token.fullText]
        omega
  exact behind tokens [] rfl

namespace Tree

theorem tokensOfAll_eq_flatMap (trees : List Tree) : tokensOfAll trees = trees.flatMap tokens := by
  induction trees with
  | nil => rfl
  | cons tree rest induction => rw [tokensOfAll, induction, List.flatMap_cons]

theorem tokensOfAll_sublist {trees others : List Tree} (sublist : trees.Sublist others) :
    (tokensOfAll trees).Sublist (tokensOfAll others) := by
  rw [tokensOfAll_eq_flatMap, tokensOfAll_eq_flatMap]
  exact sublist.flatMap tokens

theorem tokensOfAll_parts_sublist (kind : Kind) (tree : Tree) :
    (tokensOfAll (tree.parts kind)).Sublist tree.tokens := by
  cases tree with
  | leaf token => exact List.nil_sublist _
  | node own children =>
      rw [tokens]
      exact tokensOfAll_sublist List.filter_sublist

theorem tokensOfAll_flatMap_sublist {taken : Tree → List Tree} {trees : List Tree}
    (each : ∀ tree ∈ trees, (tokensOfAll (taken tree)).Sublist tree.tokens) :
    (tokensOfAll (trees.flatMap taken)).Sublist (tokensOfAll trees) := by
  rw [tokensOfAll_eq_flatMap, tokensOfAll_eq_flatMap, List.flatMap_assoc]
  apply List.Sublist.flatMap_right
  intro tree member
  rw [← tokensOfAll_eq_flatMap]
  exact each tree member

theorem pairwise_start {trees : List Tree} (ascends : Ascends (tokensOfAll trees))
    (filled : ∀ tree ∈ trees, tree.tokens ≠ []) :
    trees.Pairwise fun left right => left.start < right.start := by
  have start {tree : Tree} (some : tree.tokens ≠ []) :
      ∃ token ∈ tree.tokens, tree.start = token.start := by
    obtain ⟨first, rest, same⟩ := List.exists_cons_of_ne_nil some
    exact ⟨first, by rw [same]; exact List.mem_cons_self, by rw [Tree.start, same]⟩
  rw [tokensOfAll_eq_flatMap, Ascends, List.pairwise_flatMap] at ascends
  refine ascends.2.imp_of_mem fun {left right} one two before => ?_
  obtain ⟨first, inLeft, leftStart⟩ := start (filled left one)
  obtain ⟨second, inRight, rightStart⟩ := start (filled right two)
  rw [leftStart, rightStart]
  exact before first inLeft second inRight

end Tree

end Go

end Scaffold
