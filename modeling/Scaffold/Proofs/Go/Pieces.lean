import Mathlib.Data.List.Find
import Scaffold.Proofs.Go.Readers

/-!
# Pieces at the end of a line

Which piece a text begins with is decided in the line in which the piece ends.
The one exception is a run of blanks, which goes on behind the line.
-/

namespace Scaffold

namespace Go

open Reader

/-- What a text begins with that begins with no comment. -/
def pieceAt? (character : Char) (rest : Text) : Option Piece :=
  let text := character :: rest
  if Text.isSpace character then some (.trivia (.blank (text.takeWhile Text.isSpace)))
  else if startsName character then
    some (.lexeme (wordTerminal (text.takeWhile continuesName)) (text.takeWhile continuesName))
  else if isDecimal character || (character == '.' && (rest.head?.any isDecimal)) then
    lexeme? .number number text
  else if character = '"' then
    lexeme? .interpreted (andThen (oneOf ['"']) (interpretedRest text.length)) text
  else if character = backQuote then
    lexeme? .raw (andThen (oneOf [backQuote]) rawRest) text
  else if character = apostrophe then
    lexeme? .character (andThen (oneOf [apostrophe]) characterRest) text
  else mark? text

@[simp] theorem piece?_nil : piece? [] = none := rfl

@[simp] theorem piece?_line (rest : Text) :
    piece? ('/' :: '/' :: rest) =
      some (.trivia (.comment (('/' :: '/' :: rest).takeWhile (· ≠ '\n')))) := rfl

@[simp] theorem piece?_block (rest : Text) :
    piece? ('/' :: '*' :: rest) =
      (blockCommentRest rest).map fun after =>
        .trivia (.comment (upTo ('/' :: '*' :: rest) after)) := rfl

theorem piece?_cons {character : Char} {rest : Text}
    (line : ∀ behind, character :: rest ≠ '/' :: '/' :: behind)
    (block : ∀ behind, character :: rest ≠ '/' :: '*' :: behind) :
    piece? (character :: rest) = pieceAt? character rest := by
  unfold piece?
  split
  · simp_all
  · rename_i behind same
    exact absurd same (line behind)
  · rename_i behind same
    exact absurd same (block behind)
  · rename_i first others _ _ same
    obtain ⟨rfl, rfl⟩ := List.cons.inj same
    rfl

/-- What begins with no comment is a run of blanks or a token. -/
theorem blank_or_lexeme {character : Char} {rest : Text} {piece : Piece}
    (found : pieceAt? character rest = some piece) :
    piece = .trivia (.blank ((character :: rest).takeWhile Text.isSpace)) ∨
      ∃ terminal text, piece = .lexeme terminal text := by
  have token {terminal : Terminal} {reader : Reader} {text : Text}
      (read : lexeme? terminal reader text = some piece) :
      ∃ terminal text, piece = .lexeme terminal text := by
    obtain ⟨behind, _, rfl⟩ := Option.map_eq_some_iff.mp read
    exact ⟨_, _, rfl⟩
  unfold pieceAt? at found
  split at found
  · exact .inl (Option.some.inj found).symm
  · right
    split at found
    · exact ⟨_, _, (Option.some.inj found).symm⟩
    · split at found
      · exact token found
      · split at found
        · exact token found
        · split at found
          · exact token found
          · split at found
            · exact token found
            · obtain ⟨entry, _, rfl⟩ := Option.map_eq_some_iff.mp found
              exact ⟨_, _, rfl⟩

/-- A text that begins with a comment or does not, also when a line feed is put
behind it. -/
theorem comment_or_other (text : Text) :
    text = [] ∨ (∃ rest, text = '/' :: '/' :: rest) ∨ (∃ rest, text = '/' :: '*' :: rest) ∨
      ∃ character rest, text = character :: rest ∧ piece? text = pieceAt? character rest ∧
        ∀ more, piece? (text ++ '\n' :: more) = pieceAt? character (rest ++ '\n' :: more) := by
  match text with
  | [] => exact .inl rfl
  | [character] =>
      refine .inr (.inr (.inr ⟨character, [], rfl, ?_, fun more => ?_⟩))
      · exact piece?_cons (by simp) (by simp)
      · exact piece?_cons (by simp) (by simp)
  | character :: next :: rest =>
      by_cases line : character = '/' ∧ next = '/'
      · exact .inr (.inl ⟨rest, by rw [line.1, line.2]⟩)
      · by_cases block : character = '/' ∧ next = '*'
        · exact .inr (.inr (.inl ⟨rest, by rw [block.1, block.2]⟩))
        · have other (behind : Text) :
              piece? (character :: next :: behind) = pieceAt? character (next :: behind) := by
            apply piece?_cons
            · intro others same
              simp only [List.cons.injEq] at same
              exact line ⟨same.1, same.2.1⟩
            · intro others same
              simp only [List.cons.injEq] at same
              exact block ⟨same.1, same.2.1⟩
          exact .inr (.inr (.inr ⟨character, next :: rest, rfl, other rest, fun more => other _⟩))

/-! ## The text of a piece -/

theorem upTo_append (taken rest : Text) : upTo (taken ++ rest) rest = taken := by
  rw [upTo, List.length_append, Nat.add_sub_cancel]
  exact List.take_left

theorem upTo_append_append (text rest behind : Text) :
    upTo (text ++ behind) (rest ++ behind) = upTo text rest := by
  rw [upTo, upTo, List.length_append, List.length_append, Nat.add_sub_add_right,
    List.take_append_of_le_length (Nat.sub_le _ _)]

theorem takeWhile_append_newline {accepts : Char → Bool} (rejects : accepts '\n' = false)
    (text rest : Text) : (text ++ '\n' :: rest).takeWhile accepts = text.takeWhile accepts := by
  induction text with
  | nil => simp [rejects]
  | cons character others induction =>
      cases fits : accepts character <;> simp [fits, induction]

theorem lexeme?_of_staysInLine {terminal : Terminal} {reader : Reader}
    (stays : StaysInLine reader) (text rest : Text) :
    lexeme? terminal reader (text ++ '\n' :: rest) = lexeme? terminal reader text := by
  rw [lexeme?, lexeme?, stays]
  cases reader text with
  | none => rfl
  | some behind => simp [upTo_append_append]

theorem mark?_append_newline (text rest : Text) : mark? (text ++ '\n' :: rest) = mark? text := by
  have clean : ∀ entry ∈ operators, '\n' ∉ entry.1 := by decide
  have same (beginning : Text) (absent : '\n' ∉ beginning) :
      beginning.isPrefixOf (text ++ '\n' :: rest) = beginning.isPrefixOf text := by
    induction text generalizing beginning with
    | nil =>
        cases beginning with
        | nil => rfl
        | cons character others =>
            have other : character ≠ '\n' := by
              rintro rfl
              exact absent List.mem_cons_self
            rw [List.nil_append, List.isPrefixOf_cons_cons, beq_eq_false_iff_ne.mpr other]
            rfl
    | cons first behind induction =>
        cases beginning with
        | nil => rfl
        | cons character others =>
            simp only [List.cons_append, List.isPrefixOf]
            rw [induction others (List.not_mem_of_not_mem_cons absent)]
  rw [mark?, mark?, List.find?_congr fun entry member => same entry.1 (clean entry member)]

/-! ## Pieces in a line -/

/-- The piece that begins with a character has an end of its own. -/
def SettlesAt (character : Char) : Prop :=
  ∀ rest piece, pieceAt? character rest = some piece →
    ∃ taken behind, rest = taken ++ behind ∧ piece.text = character :: taken ∧
      ∀ other, pieceAt? character (taken ++ other) = some piece

/-- A piece between a character and its end. -/
private theorem settlesAt_of_enclosed {character : Char} {terminal : Terminal}
    {reader : Nat → Reader}
    (enclosed : ∀ rest, pieceAt? character rest =
      lexeme? terminal (andThen (oneOf [character]) (reader (character :: rest).length))
        (character :: rest))
    (settles : ∀ fuel text rest, reader fuel text = some rest →
      ∃ taken, text = taken ++ rest ∧
        ∀ more other, taken.length ≤ more → reader more (taken ++ other) = some other) :
    SettlesAt character := by
  have opened (fuel : Nat) (rest : Text) :
      andThen (oneOf [character]) (reader fuel) (character :: rest) = reader fuel rest := by
    simp [andThen, oneOf, one]
  intro rest piece found
  rw [enclosed, lexeme?, opened] at found
  obtain ⟨behind, read, rfl⟩ := Option.map_eq_some_iff.mp found
  obtain ⟨taken, rfl, settled⟩ := settles _ rest behind read
  have text (other : Text) : upTo (character :: (taken ++ other)) other = character :: taken :=
    upTo_append (character :: taken) other
  refine ⟨taken, behind, rfl, by rw [text]; rfl, fun other => ?_⟩
  rw [enclosed, lexeme?, opened, settled _ other (by simp; omega), Option.map_some, text, text]

theorem settlesAt_quote : SettlesAt '"' :=
  settlesAt_of_enclosed (fun _ => rfl) settles_interpretedRest

theorem settlesAt_backQuote : SettlesAt backQuote :=
  settlesAt_of_enclosed (fun _ => rfl) fun _ text rest found => by
    obtain ⟨taken, whole, settled⟩ := settles_rawRest text rest found
    exact ⟨taken, whole, fun _ other _ => settled other⟩

theorem settlesAt_apostrophe : SettlesAt apostrophe :=
  settlesAt_of_enclosed (fun _ => rfl) fun _ text rest found => by
    obtain ⟨taken, whole, settled⟩ := settles_characterRest text rest found
    exact ⟨taken, whole, fun _ other _ => settled other⟩

/-- Blanks apart, a piece has an end of its own or is decided in its line. -/
theorem pieceAt?_cases (character : Char) :
    Text.isSpace character = true ∨ SettlesAt character ∨
      ∀ rest more, pieceAt? character (rest ++ '\n' :: more) = pieceAt? character rest := by
  by_cases blank : Text.isSpace character = true
  · exact .inl blank
  by_cases quote : character = '"'
  · exact .inr (.inl (quote ▸ settlesAt_quote))
  by_cases back : character = backQuote
  · exact .inr (.inl (back ▸ settlesAt_backQuote))
  by_cases single : character = apostrophe
  · exact .inr (.inl (single ▸ settlesAt_apostrophe))
  refine .inr (.inr fun rest more => ?_)
  have next : ((rest ++ '\n' :: more).head?.any isDecimal) = rest.head?.any isDecimal := by
    cases rest with
    | nil => rfl
    | cons first others => rfl
  have word : ((character :: rest) ++ '\n' :: more).takeWhile continuesName =
      (character :: rest).takeWhile continuesName :=
    takeWhile_append_newline (by decide) _ more
  rw [List.cons_append] at word
  have numeral : lexeme? .number number ((character :: rest) ++ '\n' :: more) =
      lexeme? .number number (character :: rest) :=
    lexeme?_of_staysInLine staysInLine_number _ more
  have mark : mark? ((character :: rest) ++ '\n' :: more) = mark? (character :: rest) :=
    mark?_append_newline _ more
  rw [List.cons_append] at numeral mark
  simp only [pieceAt?, blank, quote, back, single, if_false, Bool.false_eq_true, next, word,
    numeral, mark]

/-- A piece other than blanks is found in its line. -/
theorem piece?_append_newline {text : Text} {piece : Piece} (found : piece? text = some piece)
    (solid : ∀ blank, piece ≠ .trivia (.blank blank)) (more : Text) :
    piece? (text ++ '\n' :: more) = some piece := by
  rcases comment_or_other text with
    rfl | ⟨rest, rfl⟩ | ⟨rest, rfl⟩ | ⟨character, rest, rfl, here, there⟩
  · simp at found
  · have same : (('/' :: '/' :: rest) ++ '\n' :: more).takeWhile (· ≠ '\n') =
        ('/' :: '/' :: rest).takeWhile (· ≠ '\n') :=
      takeWhile_append_newline (by decide) _ more
    rw [List.cons_append, List.cons_append] at same ⊢
    rw [piece?_line] at found ⊢
    rw [same, found]
  · rw [piece?_block] at found
    obtain ⟨after, read, rfl⟩ := Option.map_eq_some_iff.mp found
    obtain ⟨taken, rfl, settled⟩ := settles_blockCommentRest rest after read
    have whole (behind : Text) :
        '/' :: '*' :: (taken ++ behind) = ('/' :: '*' :: taken) ++ behind := rfl
    rw [List.cons_append, List.cons_append, piece?_block, List.append_assoc, settled,
      Option.map_some, whole, whole, upTo_append, upTo_append]
  · rw [there]
    rw [here] at found
    rcases pieceAt?_cases character with blank | settles | inLine
    · simp only [pieceAt?, blank, if_true, Option.some.injEq] at found
      exact absurd found.symm (solid _)
    · obtain ⟨taken, behind, rfl, _, settled⟩ := settles rest piece found
      rw [List.append_assoc, settled]
    · rw [inLine, found]

private theorem exists_of_append_eq {taken behind front rest : Text}
    (same : taken ++ behind = front ++ rest) (short : taken.length ≤ front.length) :
    ∃ others, front = taken ++ others := by
  have taken : taken <+: front :=
    List.prefix_of_prefix_length_le ⟨behind, rfl⟩ ⟨rest, same.symm⟩ short
  obtain ⟨others, whole⟩ := taken
  exact ⟨others, whole.symm⟩

private theorem takeWhile_of_short {accepts : Char → Bool} (fits : accepts '\n' = true)
    {text more : Text} (short : ((text ++ '\n' :: more).takeWhile accepts).length ≤ text.length) :
    (text ++ '\n' :: more).takeWhile accepts = text.takeWhile accepts := by
  induction text with
  | nil => simp [fits] at short
  | cons character others induction =>
      cases first : accepts character with
      | false => simp [first]
      | true =>
          simp only [List.cons_append, List.takeWhile_cons, first, if_true,
            List.length_cons, Nat.add_le_add_iff_right] at short ⊢
          rw [induction short]

/-- A piece that ends in a line is found in it. -/
theorem piece?_of_append_newline {text more : Text} {piece : Piece}
    (found : piece? (text ++ '\n' :: more) = some piece)
    (short : piece.text.length ≤ text.length) : piece? text = some piece := by
  rcases comment_or_other text with
    rfl | ⟨rest, rfl⟩ | ⟨rest, rfl⟩ | ⟨character, rest, rfl, here, there⟩
  · have blank : piece? ('\n' :: more) =
        some (.trivia (.blank (('\n' :: more).takeWhile Text.isSpace))) := rfl
    rw [List.nil_append, blank, Option.some.injEq] at found
    subst found
    have feed : Text.isSpace '\n' = true := by decide
    simp [Piece.text, Trivia.text, feed] at short
  · exact found ▸ (piece?_append_newline (piece?_line rest) (by simp) more).symm
  · rw [List.cons_append, List.cons_append, piece?_block] at found
    obtain ⟨after, read, rfl⟩ := Option.map_eq_some_iff.mp found
    obtain ⟨taken, whole, settled⟩ := settles_blockCommentRest _ after read
    have text (behind : Text) :
        upTo ('/' :: '*' :: (taken ++ behind)) behind = '/' :: '*' :: taken :=
      upTo_append ('/' :: '*' :: taken) behind
    rw [whole, text] at short ⊢
    simp only [Piece.text, Trivia.text, List.length_cons, Nat.add_le_add_iff_right] at short
    obtain ⟨others, rfl⟩ := exists_of_append_eq whole.symm short
    rw [piece?_block, settled, Option.map_some, text]
  · rw [there] at found
    rw [here]
    rcases pieceAt?_cases character with blank | settles | inLine
    · simp only [pieceAt?, blank, if_true, Option.some.injEq] at found ⊢
      subst found
      have feed : Text.isSpace '\n' = true := by decide
      have same : (character :: rest ++ '\n' :: more).takeWhile Text.isSpace =
          (character :: rest).takeWhile Text.isSpace := takeWhile_of_short feed short
      rw [List.cons_append] at same
      rw [same]
    · obtain ⟨taken, behind, whole, text, settled⟩ := settles _ piece found
      rw [text, List.length_cons, List.length_cons, Nat.add_le_add_iff_right] at short
      obtain ⟨others, rfl⟩ := exists_of_append_eq whole.symm short
      exact settled others
    · rw [← inLine rest more, found]

/-! ## Beginnings -/

private theorem exists_of_lexeme? {terminal : Terminal} {reader : Reader} {text : Text}
    {piece : Piece} (found : lexeme? terminal reader text = some piece) :
    ∃ rest, text = piece.text ++ rest := by
  obtain ⟨behind, _, rfl⟩ := Option.map_eq_some_iff.mp found
  exact ⟨_, (List.take_append_drop (text.length - behind.length) text).symm⟩

/-- A piece is what its text begins with. -/
theorem exists_rest_of_piece? {text : Text} {piece : Piece} (found : piece? text = some piece) :
    ∃ rest, text = piece.text ++ rest := by
  have run (accepts : Char → Bool) : ∃ rest, text = text.takeWhile accepts ++ rest :=
    ⟨text.dropWhile accepts, List.takeWhile_append_dropWhile.symm⟩
  rcases comment_or_other text with
    rfl | ⟨rest, rfl⟩ | ⟨rest, rfl⟩ | ⟨character, rest, rfl, here, _⟩
  · simp at found
  · rw [piece?_line, Option.some.injEq] at found
    rw [← found]
    exact run (· ≠ '\n')
  · rw [piece?_block] at found
    obtain ⟨after, _, rfl⟩ := Option.map_eq_some_iff.mp found
    exact ⟨_, (List.take_append_drop (('/' :: '*' :: rest).length - after.length) _).symm⟩
  · rw [here] at found
    unfold pieceAt? at found
    split at found
    · rw [← Option.some.inj found]
      exact run Text.isSpace
    · split at found
      · rw [← Option.some.inj found]
        exact run continuesName
      · split at found
        · exact exists_of_lexeme? found
        · split at found
          · exact exists_of_lexeme? found
          · split at found
            · exact exists_of_lexeme? found
            · split at found
              · exact exists_of_lexeme? found
              · obtain ⟨entry, chosen, rfl⟩ := Option.map_eq_some_iff.mp found
                have beginning := List.find?_some chosen
                obtain ⟨behind, whole⟩ := List.isPrefixOf_iff_prefix.mp beginning
                exact ⟨behind, whole.symm⟩

end Go

end Scaffold
