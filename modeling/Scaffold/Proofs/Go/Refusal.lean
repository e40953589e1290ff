import Scaffold.Proofs.Go.Depth

/-!
# What a rule leaves over

Whether a rule fits can often be told from the kinds of the tokens alone: a rule
that begins with other tokens, or needs one that does not occur, is refused.  A
rule that fits leaves the tokens behind it over, and what a composed rule leaves
over follows from what its parts leave over.
-/

namespace Scaffold

namespace Go

namespace Rule

variable {Name : Type}

/-- The rule does not fit where the next token and the tokens from there on are of some
kinds.  Names are looked up to a depth. -/
def refuses (grammar : Name → Rule Name) (later : Terminal → Bool) :
    Nat → (Terminal → Bool) → Rule Name → Bool
  | 0, _, _ => false
  | depth + 1, next, rule =>
    match rule with
    | token terminal => !next terminal
    | both first second =>
      refuses grammar later depth next first ||
        refuses grammar later depth (if first.onlyLooks then next else later) second
    | either first second =>
      refuses grammar later depth next first && refuses grammar later depth next second
    | group _ body | under _ body | ahead body => refuses grammar later depth next body
    | refer name => refuses grammar later depth next (grammar name)
    | _ => false

theorem read_eq_none_of_refuses {grammar : Name → Rule Name} {later : Terminal → Bool} :
    ∀ (depth : Nat) {fuel : Nat} {layout : Layout} {next : Terminal → Bool} {rule : Rule Name}
      {tokens : List Token}, (∀ token ∈ tokens, later token.terminal = true) →
        (∀ token ∈ tokens.head?, next token.terminal = true) →
          refuses grammar later depth next rule = true →
            read grammar fuel layout rule tokens = none := by
  intro depth
  induction depth with
  | zero => exact fun _ _ refused => absurd refused Bool.false_ne_true
  | succ depth induction =>
      intro fuel layout next rule tokens all first refused
      obtain _ | fuel := fuel
      · rfl
      cases rule with
      | token terminal =>
          cases tokens with
          | nil => rfl
          | cons head rest =>
              simp only [refuses, Bool.not_eq_true'] at refused
              have other : head.terminal ≠ terminal := by
                rintro rfl
                exact Bool.false_ne_true (refused.symm.trans (first head rfl))
              rw [read, if_neg other]
      | both one two =>
          simp only [refuses, Bool.or_eq_true] at refused
          rw [read]
          rcases refused with refused | refused
          · rw [induction all first refused]
          · cases start : read grammar fuel layout one tokens with
            | none => rfl
            | some found =>
                obtain ⟨front, middle⟩ := found
                have whole := tokens_of_read _ start
                have rest : ∀ token ∈ middle, later token.terminal = true := fun token member =>
                  all token (whole ▸ List.mem_append_right _ member)
                have none : read grammar fuel layout two middle = none := by
                  refine induction rest (fun token head => ?_) refused
                  split
                  · rename_i looks
                    exact first token ((eq_nil_of_read looks start).2 ▸ head)
                  · exact rest token (List.mem_of_head? head)
                simp only [none]
      | either one two =>
          simp only [refuses, Bool.and_eq_true] at refused
          rw [read, induction all first refused.1, induction all first refused.2]
      | group kind body =>
          rw [read, induction all first (by rwa [refuses] at refused)]
      | under inner body =>
          rw [read, induction all first (by rwa [refuses] at refused)]
      | ahead body =>
          rw [read, induction all first (by rwa [refuses] at refused)]
      | refer name =>
          rw [read, induction all first (by rwa [refuses] at refused)]
      | many | empty | notBefore | sameLine | newLine | outsideHeader =>
          exact absurd refused Bool.false_ne_true

end Rule

namespace Grammar

open Rule

variable {layout : Layout} {rule first second item body : Rule Phrase}
  {tokens middle rest : List Token} {head : Token}

theorem parse_eq_none_of_refuses {later next : Terminal → Bool} (depth : Nat)
    (refused : refuses table later depth next rule = true)
    (all : ∀ token ∈ tokens, later token.terminal = true)
    (opens : ∀ token ∈ tokens.head?, next token.terminal = true) :
    parse layout rule tokens = none :=
  read_eq_none_of_refuses depth all opens refused

/-! ## Readings put together -/

/-- The rule fits and leaves these tokens over. -/
def Leaves (layout : Layout) (rule : Rule Phrase) (tokens rest : List Token) : Prop :=
  ∃ trees, parse layout rule tokens = some (trees, rest)

theorem leaves_empty : Leaves layout empty tokens tokens := ⟨[], rfl⟩

theorem leaves_token {terminal : Terminal} (fits : head.terminal = terminal) :
    Leaves layout (token terminal) (head :: rest) rest :=
  ⟨[.leaf head], by rw [parse_token_cons, if_pos fits]⟩

theorem leaves_sameLine (together : head.onNewLine = false) :
    Leaves layout sameLine (head :: rest) (head :: rest) := by
  have inLines : parse .lines sameLine (head :: rest) =
      if head.onNewLine then none else some ([], head :: rest) := rfl
  cases layout with
  | lines => exact ⟨[], by simp [inLines, together]⟩
  | flowing | header => exact ⟨[], rfl⟩

theorem leaves_newLine (apart : head.onNewLine = true) :
    Leaves layout newLine (head :: rest) (head :: rest) :=
  ⟨[], by rw [parse_newLine_cons, if_pos apart]⟩

namespace Leaves

theorem both (one : Leaves layout first tokens middle) (two : Leaves layout second middle rest)
    (within : IsWithin (both first second) := by decide) :
    Leaves layout (both first second) tokens rest := by
  obtain ⟨front, start⟩ := one
  obtain ⟨back, finish⟩ := two
  exact ⟨front ++ back, by rw [parse_both within, start, Option.bind_some, finish]; rfl⟩

theorem left (one : Leaves layout first tokens rest)
    (within : IsWithin (either first second) := by decide) :
    Leaves layout (either first second) tokens rest := by
  obtain ⟨trees, start⟩ := one
  exact ⟨trees, by rw [parse_either within, start, Option.some_or]⟩

theorem right (none : parse layout first tokens = none) (two : Leaves layout second tokens rest)
    (within : IsWithin (either first second) := by decide) :
    Leaves layout (either first second) tokens rest := by
  obtain ⟨trees, start⟩ := two
  exact ⟨trees, by rw [parse_either within, none, Option.none_or, start]⟩

theorem many_nil (none : parse layout item tokens = none)
    (within : IsWithin (many item) := by decide) : Leaves layout (many item) tokens tokens :=
  ⟨[], by rw [parse_many within, none]⟩

theorem many_cons (one : Leaves layout item tokens middle)
    (more : Leaves layout (many item) middle rest)
    (within : IsWithin (many item) := by decide) : Leaves layout (many item) tokens rest := by
  obtain ⟨front, start⟩ := one
  obtain ⟨back, finish⟩ := more
  refine ⟨front ++ back, ?_⟩
  rw [parse_many within, start]
  simp only [finish, Option.map_some]

theorem group (kind : Kind) (inner : Leaves layout body tokens rest)
    (within : IsWithin (group kind body) := by decide) :
    Leaves layout (group kind body) tokens rest := by
  obtain ⟨trees, start⟩ := inner
  exact ⟨[.node kind trees], by rw [parse_group within, start]; rfl⟩

theorem refer {name : Phrase} (inner : Leaves layout (table name) tokens rest) :
    Leaves layout (refer name) tokens rest := by
  obtain ⟨trees, start⟩ := inner
  exact ⟨trees, by rw [parse_refer, start]⟩

theorem under {outer : Layout} (inner : Leaves layout body tokens rest)
    (within : IsWithin (under layout body) := by decide) :
    Leaves outer (under layout body) tokens rest := by
  obtain ⟨trees, start⟩ := inner
  exact ⟨trees, by rw [parse_under within, start]⟩

end Leaves

end Grammar

end Go

end Scaffold
