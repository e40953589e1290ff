import Scaffold.Proofs.Go.Pieces
import Scaffold.Proofs.Go.Spelling
import Scaffold.Proofs.Go.TypeSyntax
import Scaffold.Proofs.Module.Resolver

/-!
# Identifiers

A name that is not reserved is read as one lexeme.  It stays a name with a number
behind it, unless that makes it a reserved word.
-/

namespace Scaffold

namespace Go

/-- The text is a name that is not reserved. -/
def IsIdentifier (name : Text) : Prop :=
  ∃ identifier : TypeSyntax.Identifier, identifier.text = name

variable {name base : Text}

theorem isIdentifier_iff :
    IsIdentifier name ↔ name.head?.any startsName = true ∧ name.all continuesName = true ∧
      ∀ entry ∈ keywords, entry.1 ≠ name := by
  constructor
  · rintro ⟨⟨first, rest, starts, continues, free⟩, rfl⟩
    refine ⟨starts, List.all_eq_true.mpr (List.forall_mem_cons.mpr ⟨?_, continues⟩), free⟩
    rw [continuesName, starts, Bool.true_or]
  · rintro ⟨starts, word, free⟩
    cases name with
    | nil => cases starts
    | cons first rest =>
        exact ⟨⟨first, rest, starts, (List.forall_mem_cons.mp (List.all_eq_true.mp word)).2, free⟩,
          rfl⟩

instance (name : Text) : Decidable (IsIdentifier name) :=
  decidable_of_iff _ isIdentifier_iff.symm

/-- A word ends where something else follows. -/
theorem piece?_word {word rest : Text} (starts : word.head?.any startsName = true)
    (letters : ∀ character ∈ word, continuesName character = true)
    (ends : ∀ character ∈ rest.head?, continuesName character = false) :
    piece? (word ++ rest) = some (.lexeme (wordTerminal word) word) := by
  cases word with
  | nil => cases starts
  | cons first others =>
      have begins : startsName first = true := starts
      have solid : Text.isSpace first = false := by
        refine Bool.eq_false_iff.mpr fun space => ?_
        have blank := Text.isBlank_of_isSpace space
        rw [Text.isBlank_of_isWord (isWord_of_startsName begins)] at blank
        cases blank
      have noSlash : first ≠ '/' := by
        rintro rfl
        exact absurd begins (by decide)
      have stops : rest.takeWhile continuesName = [] := by
        cases rest with
        | nil => rfl
        | cons character rest => exact List.takeWhile_cons_of_neg (by simp [ends character rfl])
      have whole : (first :: (others ++ rest)).takeWhile continuesName = first :: others := by
        rw [← List.cons_append, List.takeWhile_append_of_pos letters, stops, List.append_nil]
      rw [List.cons_append, piece?_cons (by simp [noSlash]) (by simp [noSlash]), pieceAt?]
      simp only [solid, begins, whole, Bool.false_eq_true, if_false, if_true]

theorem isIdentifier_of_piece? {text spelling : Text} {terminal : Terminal}
    (isName : terminal.IsName) (found : piece? text = some (.lexeme terminal spelling)) :
    IsIdentifier spelling := by
  obtain ⟨first, rest, rfl, _, starts, whole, same⟩ := exists_word_of_piece? isName found
  have continues : continuesName first = true := by rw [continuesName, starts, Bool.true_or]
  have letters := continuesName_of_piece? isName found
  rw [List.takeWhile_cons_of_pos continues] at whole
  refine isIdentifier_iff.mpr ⟨?_, List.all_eq_true.mpr letters, fun entry listed reserved => ?_⟩
  · rw [whole]
    exact starts
  · have known : (keywords.find? fun entry => entry.1 == spelling).isSome :=
      List.find?_isSome.mpr ⟨entry, listed, beq_iff_eq.mpr reserved⟩
    obtain ⟨other, hit⟩ := Option.isSome_iff_exists.mp known
    rw [same, wordTerminal, hit] at isName
    rcases isName with name | name <;> cases name

theorem isIdentifier_of_mem_tokens {source : Text} {tokens : List Token} {token : Token}
    (cut : tokens? source = some tokens) (member : token ∈ tokens)
    (isName : token.terminal.IsName) : IsIdentifier token.text := by
  rcases exists_text_of_mem_tokens cut member with last | ⟨text, found⟩
  · rw [last] at isName
    simp [Terminal.IsName] at isName
  · exact isIdentifier_of_piece? isName found

namespace IsIdentifier

theorem ne_nil (proper : IsIdentifier name) : name ≠ [] := by
  obtain ⟨identifier, rfl⟩ := proper
  exact List.cons_ne_nil _ _

theorem isWord (proper : IsIdentifier name) : IsWord name :=
  ⟨proper.ne_nil, List.all_eq_true.mp (isIdentifier_iff.mp proper).2.1⟩

theorem isName (proper : IsIdentifier name) : (wordTerminal name).IsName := by
  have free : (keywords.find? fun entry => entry.1 == name) = none := by
    simpa [List.find?_eq_none] using (isIdentifier_iff.mp proper).2.2
  rw [wordTerminal, free]
  dsimp only
  split
  · exact .inr rfl
  · exact .inl rfl

theorem append (proper : IsIdentifier base) (apart : ∀ entry ∈ keywords, ¬ base <+: entry.1)
    {rest : Text} (word : ∀ character ∈ rest, continuesName character = true) :
    IsIdentifier (base ++ rest) := by
  obtain ⟨starts, whole, -⟩ := isIdentifier_iff.mp proper
  refine isIdentifier_iff.mpr ⟨?_, ?_, fun entry member same => ?_⟩
  · rwa [List.head?_append_of_ne_nil _ proper.ne_nil]
  · rw [List.all_append, whole, Bool.true_and]
    exact List.all_eq_true.mpr word
  · exact apart entry member (same ▸ List.prefix_append base rest)

theorem choose (proper : IsIdentifier base) (apart : ∀ entry ∈ keywords, ¬ base <+: entry.1)
    (taken : List Text) : IsIdentifier (FreshName.choose base taken) := by
  by_cases changed : FreshName.choose base taken = base
  · rwa [changed]
  · obtain ⟨index, found⟩ := FreshName.exists_numbered_of_choose_ne changed
    rw [found]
    exact proper.append apart continuesName_digit

end IsIdentifier

end Go

end Scaffold
