import Mathlib.Data.List.Basic
import Scaffold.Go.Lexer

/-!
# How tokens are spelled

Every token of a source was found by the lexer somewhere in it.  A name that is
not reserved is spelled with letters, digits and low lines only.
-/

namespace Scaffold

namespace Go

theorem exists_text_of_mem_pieces {piece : Piece} :
    ∀ (fuel : Nat) {text : Text} {pieces : List Piece}, pieces? fuel text = some pieces →
      piece ∈ pieces → ∃ rest, piece? rest = some piece := by
  intro fuel
  induction fuel with
  | zero =>
      intro text pieces cut member
      cases text with
      | nil =>
          rw [pieces?, Option.some.injEq] at cut
          simp [← cut] at member
      | cons character rest => simp [pieces?] at cut
  | succ fuel induction =>
      intro text pieces cut member
      cases text with
      | nil =>
          rw [pieces?, Option.some.injEq] at cut
          simp [← cut] at member
      | cons character rest =>
          rw [pieces?] at cut
          · split at cut
            · simp at cut
            · rename_i first found
              obtain ⟨others, later, rfl⟩ := Option.map_eq_some_iff.mp cut
              cases List.mem_cons.mp member with
              | inl same => exact ⟨_, same ▸ found⟩
              | inr inside => exact induction later inside
          · simp

/-- A token is the end of the source or one of the lexemes. -/
theorem mem_assemble {token : Token} (pieces : List Piece) :
    ∀ {position lead}, token ∈ assemble position lead pieces →
      token.terminal = .finish ∨ Piece.lexeme token.terminal token.text ∈ pieces := by
  induction pieces with
  | nil =>
      intro position lead member
      rw [assemble, List.mem_singleton] at member
      left
      rw [member]
  | cons piece rest induction =>
      intro position lead member
      cases piece with
      | trivia trivia =>
          rw [assemble] at member
          cases induction member with
          | inl last => exact .inl last
          | inr inside => exact .inr (List.mem_cons_of_mem _ inside)
      | lexeme terminal text =>
          rw [assemble, List.mem_cons] at member
          cases member with
          | inl same =>
              right
              rw [same]
              exact List.mem_cons_self
          | inr later =>
              cases induction later with
              | inl last => exact .inl last
              | inr inside => exact .inr (List.mem_cons_of_mem _ inside)

/-- A token of a source was found somewhere in it, unless it is the end. -/
theorem exists_text_of_mem_tokens {source : Text} {tokens : List Token} {token : Token}
    (cut : tokens? source = some tokens) (member : token ∈ tokens) :
    token.terminal = .finish ∨
      ∃ text, piece? text = some (.lexeme token.terminal token.text) := by
  have found {pieces : List Piece} {position : Nat} {lead : List Trivia} {text : Text}
      (listed : pieces? text.length text = some pieces)
      (inside : token ∈ assemble position lead pieces) :
      token.terminal = .finish ∨
        ∃ text, piece? text = some (.lexeme token.terminal token.text) := by
    cases mem_assemble pieces inside with
    | inl last => exact .inl last
    | inr lexeme => exact .inr (exists_text_of_mem_pieces _ listed lexeme)
  unfold tokens? at cut
  split at cut
  · rw [Option.some.injEq] at cut
    rw [← cut] at member
    cases mem_assemble [] member with
    | inl last => exact .inl last
    | inr impossible => simp at impossible
  · split at cut
    · obtain ⟨pieces, listed, rfl⟩ := Option.map_eq_some_iff.mp cut
      exact found listed member
    · obtain ⟨pieces, listed, rfl⟩ := Option.map_eq_some_iff.mp cut
      exact found listed member

/-- The token is a name that the source is free to choose. -/
def Terminal.IsName (terminal : Terminal) : Prop :=
  terminal = .identifier ∨ terminal = .allocator

/-- A lexeme that is a name is the longest word at its place. -/
theorem exists_word_of_piece? {text spelling : Text} {terminal : Terminal}
    (name : terminal.IsName) (found : piece? text = some (.lexeme terminal spelling)) :
    ∃ character rest, text = character :: rest ∧ Text.isSpace character = false ∧
      startsName character = true ∧ spelling = text.takeWhile continuesName ∧
      terminal = wordTerminal spelling := by
  have other {candidate : Terminal} {reader : Reader} {text : Text}
      (lexeme : lexeme? candidate reader text = some (.lexeme terminal spelling)) :
      candidate.IsName := by
    obtain ⟨_, _, same⟩ := Option.map_eq_some_iff.mp lexeme
    rw [Piece.lexeme.injEq] at same
    rw [same.1]
    exact name
  unfold piece? at found
  split at found
  · simp at found
  · simp at found
  · obtain ⟨_, _, same⟩ := Option.map_eq_some_iff.mp found
    simp at same
  · rename_i character rest _ _
    split at found
    · simp at found
    · rename_i solid
      split at found
      · rename_i starts
        simp only [Option.some.injEq, Piece.lexeme.injEq] at found
        exact ⟨character, rest, rfl, by simpa using solid, starts, found.2.symm,
          by rw [← found.1, found.2]⟩
      · -- The other readers find lexemes that are no names.
        exfalso
        split at found
        · simpa [Terminal.IsName] using other found
        · split at found
          · simpa [Terminal.IsName] using other found
          · split at found
            · simpa [Terminal.IsName] using other found
            · split at found
              · simpa [Terminal.IsName] using other found
              · obtain ⟨entry, _, same⟩ := Option.map_eq_some_iff.mp found
                rw [Piece.lexeme.injEq] at same
                rw [← same.1] at name
                simp [Terminal.IsName] at name

theorem continuesName_of_piece? {text spelling : Text} {terminal : Terminal}
    (name : terminal.IsName) (found : piece? text = some (.lexeme terminal spelling)) :
    ∀ character ∈ spelling, continuesName character = true := by
  obtain ⟨_, _, _, _, _, rfl, _⟩ := exists_word_of_piece? name found
  exact List.all_eq_true.mp List.all_takeWhile

theorem continuesName_of_mem_tokens {source : Text} {tokens : List Token} {token : Token}
    (cut : tokens? source = some tokens) (member : token ∈ tokens)
    (name : token.terminal.IsName) :
    ∀ character ∈ token.text, continuesName character = true := by
  cases exists_text_of_mem_tokens cut member with
  | inl last =>
      rw [last] at name
      simp [Terminal.IsName] at name
  | inr found =>
      obtain ⟨text, found⟩ := found
      exact continuesName_of_piece? name found

/-- Operators are spelled as they are listed. -/
theorem mem_operators_of_piece? {text spelling : Text} {mark : Operator}
    (found : piece? text = some (.lexeme (.operator mark) spelling)) :
    (spelling, mark) ∈ operators := by
  have other {candidate : Terminal} {reader : Reader} {text : Text}
      (lexeme : lexeme? candidate reader text = some (.lexeme (.operator mark) spelling)) :
      candidate = .operator mark := by
    obtain ⟨_, _, same⟩ := Option.map_eq_some_iff.mp lexeme
    exact (Piece.lexeme.inj same).1
  have reserved (word : Text) : wordTerminal word ≠ .operator mark := by
    unfold wordTerminal
    split
    · simp
    · split <;> simp
  unfold piece? at found
  split at found
  · cases found
  · cases found
  · obtain ⟨_, _, same⟩ := Option.map_eq_some_iff.mp found
    cases same
  · split at found
    · cases found
    · split at found
      · exact absurd (Piece.lexeme.inj (Option.some.inj found)).1 (reserved _)
      · split at found
        · cases other found
        · split at found
          · cases other found
          · split at found
            · cases other found
            · split at found
              · cases other found
              · obtain ⟨entry, listed, same⟩ := Option.map_eq_some_iff.mp found
                obtain ⟨terminal, rfl⟩ := Piece.lexeme.inj same
                rw [← Terminal.operator.inj terminal]
                exact List.mem_of_find?_eq_some listed

theorem mem_operators_of_mem_tokens {source : Text} {tokens : List Token} {token : Token}
    {mark : Operator} (cut : tokens? source = some tokens) (member : token ∈ tokens)
    (isMark : token.terminal = .operator mark) : (token.text, mark) ∈ operators := by
  rcases exists_text_of_mem_tokens cut member with last | ⟨text, found⟩
  · rw [last] at isMark
    cases isMark
  · rw [isMark] at found
    exact mem_operators_of_piece? found

end Go

end Scaffold
