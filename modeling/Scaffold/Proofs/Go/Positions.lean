import Scaffold.Proofs.Go.Scanning
import Scaffold.Proofs.Go.Spelling

/-!
# Where tokens stand

The tokens of a source with what stands before them are the source again, so the
position of a token is the number of characters in the tokens before it and in
its lead.
-/

namespace Scaffold

namespace Go

theorem Cuts.flatMap_text {text rest : Text} {pieces : List Piece} (cuts : Cuts text pieces rest) :
    text = pieces.flatMap Piece.text ++ rest := by
  induction cuts with
  | done => rfl
  | piece found _ _ induction =>
      obtain ⟨behind, whole⟩ := exists_rest_of_piece? found
      rw [whole, List.drop_left] at induction
      rw [List.flatMap_cons, List.append_assoc, ← induction]
      exact whole

theorem Cuts.text_ne_nil {text rest : Text} {pieces : List Piece} (cuts : Cuts text pieces rest) :
    ∀ piece ∈ pieces, piece.text ≠ [] := by
  induction cuts with
  | done => simp
  | piece _ something _ induction => exact List.forall_mem_cons.mpr ⟨something, induction⟩

theorem flatMap_fullText_assemble (pieces : List Piece) :
    ∀ position lead, (assemble position lead pieces).flatMap Token.fullText =
      lead.flatMap Trivia.text ++ pieces.flatMap Piece.text := by
  induction pieces with
  | nil => intro position lead; simp [assemble, Token.fullText]
  | cons piece rest induction =>
      intro position lead
      cases piece with
      | trivia trivia => simp [assemble, induction, Piece.text]
      | lexeme terminal text => simp [assemble, induction, Piece.text, Token.fullText]

/-- The place of a token among those of some pieces, and where its text comes from. -/
private theorem place_of_assemble_eq {token : Token} {post : List Token} (pieces : List Piece) :
    ∀ position lead front, assemble (position + (lead.flatMap Trivia.text).length) lead pieces =
        front ++ token :: post →
      token.start = position +
          (front.flatMap Token.fullText ++ token.lead.flatMap Trivia.text).length ∧
        (post ≠ [] → .lexeme token.terminal token.text ∈ pieces) := by
  induction pieces with
  | nil =>
      intro position lead front same
      rw [assemble] at same
      cases front with
      | nil =>
          obtain ⟨rfl, rfl⟩ := List.cons.inj same
          exact ⟨by simp, fun more => absurd rfl more⟩
      | cons first others =>
          have sizes := congrArg List.length same
          simp at sizes
  | cons piece rest induction =>
      intro position lead front same
      cases piece with
      | trivia trivia =>
          have next : position + (lead.flatMap Trivia.text).length + trivia.text.length =
              position + ((lead ++ [trivia]).flatMap Trivia.text).length := by
            simp [Nat.add_assoc]
          rw [assemble, next] at same
          obtain ⟨start, listed⟩ := induction position _ front same
          exact ⟨start, fun more => List.mem_cons_of_mem _ (listed more)⟩
      | lexeme terminal text =>
          rw [assemble] at same
          cases front with
          | nil =>
              obtain ⟨rfl, _⟩ := List.cons.inj same
              exact ⟨by simp, fun _ => List.mem_cons_self⟩
          | cons first others =>
              obtain ⟨rfl, later⟩ := List.cons.inj same
              have here := induction
                (position + (lead.flatMap Trivia.text).length + text.length) [] others
              rw [List.flatMap_nil, List.length_nil, Nat.add_zero] at here
              obtain ⟨start, listed⟩ := here later
              refine ⟨?_, fun more => List.mem_cons_of_mem _ (listed more)⟩
              rw [start, List.flatMap_cons, Token.fullText]
              simp only [List.length_append]
              omega

variable {source : Text} {tokens front post : List Token} {token : Token}

theorem flatMap_fullText_of_tokens? (cut : tokens? source = some tokens) :
    tokens.flatMap Token.fullText = source := by
  obtain ⟨pieces, lead, found, rfl, text, _⟩ := exists_pieces_of_tokens? cut
  have pieces := (cuts_of_pieces? _ found).flatMap_text
  rw [List.append_nil] at pieces
  rw [flatMap_fullText_assemble, ← pieces, ← text]

/-- The position of a token, which has a text unless it is the last one. -/
theorem place_of_tokens? (cut : tokens? source = some (front ++ token :: post)) :
    token.start =
        (front.flatMap Token.fullText ++ token.lead.flatMap Trivia.text).length ∧
      (post ≠ [] → token.text ≠ []) := by
  obtain ⟨pieces, lead, found, same, _⟩ := exists_pieces_of_tokens? cut
  rw [← Nat.zero_add (lead.flatMap Trivia.text).length] at same
  obtain ⟨start, listed⟩ := place_of_assemble_eq pieces 0 lead front same.symm
  rw [Nat.zero_add] at start
  exact ⟨start, fun more => (cuts_of_pieces? _ found).text_ne_nil _ (listed more)⟩

theorem stop_of_tokens? (cut : tokens? source = some (front ++ token :: post)) :
    token.stop = ((front ++ [token]).flatMap Token.fullText).length := by
  rw [Token.stop, (place_of_tokens? cut).1]
  simp [Token.fullText, Nat.add_assoc]

theorem take_stop_of_tokens? (cut : tokens? source = some (front ++ token :: post)) :
    source.take token.stop = (front ++ [token]).flatMap Token.fullText := by
  have parts : source = (front ++ [token]).flatMap Token.fullText ++
      post.flatMap Token.fullText := by
    rw [← flatMap_fullText_of_tokens? cut]
    simp
  rw [stop_of_tokens? cut]
  exact (congrArg (List.take _) parts).trans List.take_left

/-! ## What stands before a token -/

theorem mem_of_mem_lead_assemble {trivia : Trivia} (pieces : List Piece) :
    ∀ {position lead}, token ∈ assemble position lead pieces → trivia ∈ token.lead →
      trivia ∈ lead ∨ .trivia trivia ∈ pieces := by
  induction pieces with
  | nil =>
      intro position lead member inside
      rw [assemble, List.mem_singleton] at member
      rw [member] at inside
      exact .inl inside
  | cons piece rest induction =>
      intro position lead member inside
      cases piece with
      | trivia other =>
          rw [assemble] at member
          rcases induction member inside with early | late
          · rcases List.mem_append.mp early with before | same
            · exact .inl before
            · rw [List.mem_singleton.mp same]
              exact .inr List.mem_cons_self
          · exact .inr (List.mem_cons_of_mem _ late)
      | lexeme terminal text =>
          rw [assemble] at member
          rcases List.mem_cons.mp member with rfl | later
          · exact .inl inside
          · rcases induction later inside with nothing | late
            · exact absurd nothing List.not_mem_nil
            · exact .inr (List.mem_cons_of_mem _ late)

theorem mem_of_mem_tail_assemble {trivia : Trivia} (pieces : List Piece) :
    ∀ {position lead}, token ∈ (assemble position lead pieces).tail → trivia ∈ token.lead →
      .trivia trivia ∈ pieces := by
  induction pieces with
  | nil => exact fun member _ => absurd member List.not_mem_nil
  | cons piece rest induction =>
      intro position lead member inside
      cases piece with
      | trivia other =>
          rw [assemble] at member
          exact List.mem_cons_of_mem _ (induction member inside)
      | lexeme terminal text =>
          rw [assemble, List.tail_cons] at member
          rcases mem_of_mem_lead_assemble rest member inside with nothing | late
          · exact absurd nothing List.not_mem_nil
          · exact List.mem_cons_of_mem _ late

theorem isBlank_of_mem_lead (cut : tokens? source = some tokens) (behind : token ∈ tokens.tail) :
    ∀ character ∈ token.lead.flatMap Trivia.code, Text.isBlank character = true := by
  obtain ⟨pieces, lead, found, rfl, _⟩ := exists_pieces_of_tokens? cut
  intro character member
  obtain ⟨trivia, inside, written⟩ := List.mem_flatMap.mp member
  obtain ⟨text, read⟩ :=
    exists_text_of_mem_pieces _ found (mem_of_mem_tail_assemble pieces behind inside)
  cases trivia with
  | blank blanks =>
      have space := isSpace_of_piece?_blank read character written
      exact (Bool.and_eq_true_iff.mp space).1
  | comment comment =>
      rw [List.mem_singleton.mp written]
      decide

end Go

end Scaffold
