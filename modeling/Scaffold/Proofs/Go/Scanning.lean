import Scaffold.Proofs.Go.Likeness
import Scaffold.Proofs.Go.Pieces

/-!
# Scanning a text from the middle

The tokens of a text, places left aside, are found piece by piece, and only
whether a line has ended since the last token is carried over from one piece to
the next.  What is cut up to the end of a line is cut so whatever follows the
line.
-/

namespace Scaffold

namespace Go

open Token (plainLead)

/-! ## Pieces and plain tokens -/

/-- A token without its place, on a new line or not. -/
def plainToken (breaks : Bool) (terminal : Terminal) (text : Text) : Token :=
  ⟨plainLead breaks, terminal, text, 0⟩

/-- A line has ended since the last token of some pieces. -/
def breaksAfter : Bool → List Piece → Bool
  | breaks, [] => breaks
  | breaks, .trivia trivia :: rest => breaksAfter (breaks || trivia.breaksLine) rest
  | _, .lexeme _ _ :: rest => breaksAfter false rest

/-- The tokens of some pieces. -/
def plainTokens : Bool → List Piece → List Token
  | _, [] => []
  | breaks, .trivia trivia :: rest => plainTokens (breaks || trivia.breaksLine) rest
  | breaks, .lexeme terminal text :: rest =>
    plainToken breaks terminal text :: plainTokens false rest

theorem breaksAfter_append (pieces others : List Piece) :
    ∀ breaks, breaksAfter breaks (pieces ++ others) =
      breaksAfter (breaksAfter breaks pieces) others := by
  induction pieces with
  | nil => intro breaks; rfl
  | cons piece rest induction =>
      intro breaks
      cases piece with
      | trivia trivia => exact induction _
      | lexeme terminal text => exact induction false

theorem onNewLine_plainToken (breaks : Bool) (terminal : Terminal) (text : Text) :
    (plainToken breaks terminal text).onNewLine = breaks :=
  Token.any_plainLead breaks

/-- The tokens of a text from somewhere in the middle to the end. -/
def tokensOf (breaks : Bool) (pieces : List Piece) : List Token :=
  plainTokens breaks pieces ++ [plainToken (breaksAfter breaks pieces) .finish []]

theorem map_plain_assemble (pieces : List Piece) :
    ∀ position lead, (assemble position lead pieces).map Token.plain =
      tokensOf (lead.any Trivia.breaksLine) pieces := by
  induction pieces with
  | nil => intro position lead; rfl
  | cons piece rest induction =>
      intro position lead
      cases piece with
      | trivia trivia =>
          rw [assemble, induction, List.any_append]
          simp [tokensOf, plainTokens, breaksAfter]
      | lexeme terminal text =>
          rw [assemble, List.map_cons, induction]
          rfl

/-! ## Cutting a text into pieces -/

/-- A text begins with some pieces and goes on with a rest. -/
inductive Cuts : Text → List Piece → Text → Prop where
  | done {text : Text} : Cuts text [] text
  | piece {text rest : Text} {piece : Piece} {pieces : List Piece}
      (found : piece? text = some piece) (something : piece.text ≠ [])
      (later : Cuts (text.drop piece.text.length) pieces rest) : Cuts text (piece :: pieces) rest

private theorem pieces?_of_nil {text : Text} {piece : Piece} (found : piece? text = some piece)
    (nothing : piece.text = []) : ∀ fuel, pieces? fuel text = none := by
  intro fuel
  induction fuel with
  | zero =>
      cases text with
      | nil => simp at found
      | cons character rest => rfl
  | succ fuel induction =>
      cases text with
      | nil => simp at found
      | cons character rest =>
          simp only [pieces?, found, nothing, List.length_nil, List.drop_zero, induction,
            Option.map_none]

theorem cuts_of_pieces? :
    ∀ (fuel : Nat) {text : Text} {pieces : List Piece}, pieces? fuel text = some pieces →
      Cuts text pieces [] := by
  intro fuel
  induction fuel with
  | zero =>
      intro text pieces cut
      cases text with
      | nil =>
          rw [pieces?, Option.some.injEq] at cut
          exact cut ▸ .done
      | cons character rest => simp [pieces?] at cut
  | succ fuel induction =>
      intro text pieces cut
      cases text with
      | nil =>
          rw [pieces?, Option.some.injEq] at cut
          exact cut ▸ .done
      | cons character rest =>
          have whole := cut
          rw [pieces?] at cut
          · split at cut
            · simp at cut
            · rename_i piece found
              obtain ⟨others, later, rfl⟩ := Option.map_eq_some_iff.mp cut
              refine .piece found (fun nothing => ?_) (induction later)
              rw [pieces?_of_nil found nothing] at whole
              simp at whole
          · simp

/-- More fuel than there are characters changes nothing. -/
private theorem pieces?_of_le :
    ∀ (fuel : Nat) {text : Text}, text.length ≤ fuel →
      pieces? fuel text = pieces? text.length text := by
  intro fuel
  induction fuel using Nat.strongRecOn with
  | ind fuel induction =>
      intro text enough
      cases text with
      | nil => cases fuel <;> rfl
      | cons character rest =>
          obtain _ | fuel := fuel
          · simp at enough
          · simp only [List.length_cons, Nat.add_le_add_iff_right] at enough ⊢
            simp only [pieces?]
            cases found : piece? (character :: rest) with
            | none => rfl
            | some piece =>
                by_cases nothing : piece.text = []
                · simp only [nothing, List.length_nil, List.drop_zero,
                    pieces?_of_nil found nothing]
                · have size : piece.text.length ≠ 0 := by
                    simpa [List.length_eq_zero_iff] using nothing
                  have shorter :
                      ((character :: rest).drop piece.text.length).length ≤ rest.length := by
                    rw [List.length_drop, List.length_cons]
                    omega
                  simp only [induction fuel (by omega) (shorter.trans enough),
                    induction rest.length (by omega) shorter]

/-- The tokens of a text up to its end, if it can be cut. -/
def scan? (breaks : Bool) (text : Text) : Option (List Token) :=
  (pieces? text.length text).map (tokensOf breaks)

theorem pieces?_of_piece? {text : Text} {piece : Piece} (found : piece? text = some piece)
    (something : piece.text ≠ []) :
    pieces? text.length text =
      (pieces? (text.drop piece.text.length).length (text.drop piece.text.length)).map
        (piece :: ·) := by
  cases text with
  | nil => simp at found
  | cons character rest =>
      have size : piece.text.length ≠ 0 := by
        simpa [List.length_eq_zero_iff] using something
      have shorter : ((character :: rest).drop piece.text.length).length ≤ rest.length := by
        rw [List.length_drop, List.length_cons]
        omega
      rw [List.length_cons, pieces?, found]
      · simp only [pieces?_of_le rest.length shorter]
      · simp

theorem scan?_of_trivia {text : Text} {trivia : Trivia}
    (found : piece? text = some (.trivia trivia)) (something : trivia.text ≠ []) (breaks : Bool) :
    scan? breaks text =
      scan? (breaks || trivia.breaksLine) (text.drop trivia.text.length) := by
  rw [scan?, pieces?_of_piece? found something, Option.map_map]
  rfl

theorem scan?_of_lexeme {text spelling : Text} {terminal : Terminal}
    (found : piece? text = some (.lexeme terminal spelling)) (something : spelling ≠ [])
    (breaks : Bool) :
    scan? breaks text =
      (scan? false (text.drop spelling.length)).map (plainToken breaks terminal spelling :: ·) := by
  rw [scan?, pieces?_of_piece? found something, Option.map_map, scan?, Option.map_map]
  rfl

theorem scan?_of_cuts {text rest : Text} {pieces : List Piece} (cuts : Cuts text pieces rest) :
    ∀ breaks, scan? breaks text =
      (scan? (breaksAfter breaks pieces) rest).map (plainTokens breaks pieces ++ ·) := by
  induction cuts with
  | done => intro breaks; simp [plainTokens, breaksAfter]
  | @piece text rest piece pieces found something later induction =>
      intro breaks
      cases piece with
      | trivia trivia => exact (scan?_of_trivia found something breaks).trans (induction _)
      | lexeme terminal spelling =>
          rw [scan?_of_lexeme found something]
          refine (congrArg (Option.map _) (induction false)).trans ?_
          rw [Option.map_map]
          rfl

theorem Cuts.length_le {text rest : Text} {pieces : List Piece} (cuts : Cuts text pieces rest) :
    rest.length ≤ text.length := by
  induction cuts with
  | done => exact Nat.le_refl _
  | piece _ _ _ induction =>
      rw [List.length_drop] at induction
      omega

/-! ## Blanks -/

theorem piece?_of_isSpace {character : Char} (blank : Text.isSpace character = true)
    (rest : Text) :
    piece? (character :: rest) =
      some (.trivia (.blank ((character :: rest).takeWhile Text.isSpace))) := by
  have noSlash : character ≠ '/' := by
    rintro rfl
    exact absurd blank (by decide)
  rw [piece?_cons (by simp [noSlash]) (by simp [noSlash]), pieceAt?]
  simp only [blank, if_true]

theorem isSpace_of_piece?_blank {text blanks : Text}
    (found : piece? text = some (.trivia (.blank blanks))) :
    ∀ character ∈ blanks, Text.isSpace character = true := by
  rcases comment_or_other text with
    rfl | ⟨rest, rfl⟩ | ⟨rest, rfl⟩ | ⟨character, rest, rfl, here, _⟩
  · simp at found
  · simp at found
  · rw [piece?_block] at found
    obtain ⟨_, _, other⟩ := Option.map_eq_some_iff.mp found
    simp at other
  · rw [here] at found
    rcases blank_or_lexeme found with same | ⟨_, _, other⟩
    · simp only [Piece.trivia.injEq, Trivia.blank.injEq] at same
      rw [same]
      exact List.all_eq_true.mp List.all_takeWhile
    · exact Piece.noConfusion other

/-- Blanks may be scanned one by one. -/
theorem scan?_cons_of_isSpace {character : Char} (blank : Text.isSpace character = true)
    (breaks : Bool) (rest : Text) :
    scan? breaks (character :: rest) = scan? (breaks || '\n' == character) rest := by
  have run {character : Char} (blank : Text.isSpace character = true) (rest : Text)
      (breaks : Bool) : scan? breaks (character :: rest) =
        scan? ((breaks || '\n' == character) || (rest.takeWhile Text.isSpace).contains '\n')
          (rest.dropWhile Text.isSpace) := by
    have behind : rest.drop (rest.takeWhile Text.isSpace).length = rest.dropWhile Text.isSpace := by
      have split := @List.takeWhile_append_dropWhile Char Text.isSpace rest
      exact (congrArg (List.drop _) split.symm).trans List.drop_left
    have found := piece?_of_isSpace blank rest
    rw [List.takeWhile_cons_of_pos blank] at found
    rw [scan?_of_trivia found (by simp [Trivia.text])]
    rw [Trivia.text, List.length_cons, List.drop_succ_cons, behind, Trivia.breaksLine,
      List.contains_cons, Bool.or_assoc]
  rw [run blank]
  cases rest with
  | nil => simp
  | cons next others =>
      cases following : Text.isSpace next with
      | true =>
          rw [run following, List.takeWhile_cons_of_pos following,
            List.dropWhile_cons_of_pos following, List.contains_cons, Bool.or_assoc,
            Bool.or_assoc, Bool.or_assoc]
      | false =>
          rw [List.takeWhile_cons_of_neg (by simp [following]),
            List.dropWhile_cons_of_neg (by simp [following])]
          simp

theorem scan?_newline (breaks : Bool) (rest : Text) :
    scan? breaks ('\n' :: rest) = scan? true rest := by
  rw [scan?_cons_of_isSpace (by decide)]
  simp

theorem scan?_append_of_isSpace {blanks : Text}
    (all : ∀ character ∈ blanks, Text.isSpace character = true) :
    ∀ (breaks : Bool) (rest : Text),
      scan? breaks (blanks ++ rest) = scan? (breaks || blanks.contains '\n') rest := by
  induction blanks with
  | nil => intro breaks rest; simp
  | cons character others induction =>
      intro breaks rest
      rw [List.cons_append, scan?_cons_of_isSpace (all character List.mem_cons_self),
        induction fun other member => all other (List.mem_cons_of_mem character member),
        List.contains_cons, Bool.or_assoc]

/-! ## Cutting behind the end of a line -/

/-- What is cut from a text before the end of a line is cut so without the rest
of the text. -/
theorem Cuts.of_append_newline {more : Text} {pieces : List Piece} {whole left : Text}
    (cuts : Cuts whole pieces left) :
    ∀ text rest, whole = text ++ '\n' :: more → left = rest ++ '\n' :: more →
      Cuts text pieces rest := by
  induction cuts with
  | done =>
      intro text rest one two
      rw [List.append_cancel_right (one.symm.trans two)]
      exact .done
  | @piece whole left piece pieces found something later induction =>
      rintro text rest rfl rfl
      have longer := later.length_le
      rw [List.length_drop] at longer
      simp only [List.length_append, List.length_cons] at longer
      have size : piece.text.length ≠ 0 := by
        simpa [List.length_eq_zero_iff] using something
      have short : piece.text.length ≤ text.length := by omega
      refine .piece (piece?_of_append_newline found short) something (induction _ rest ?_ rfl)
      rw [List.drop_append_of_le_length short]

/-- What is cut from a line is cut so whatever follows the line. -/
theorem scan?_append_newline {text left : Text} {pieces : List Piece}
    (cuts : Cuts text pieces left) (more : Text) :
    ∀ breaks, scan? breaks (text ++ '\n' :: more) =
      (scan? (breaksAfter breaks pieces) (left ++ '\n' :: more)).map
        (plainTokens breaks pieces ++ ·) := by
  induction cuts with
  | done => intro breaks; simp [plainTokens, breaksAfter]
  | @piece text left piece pieces found something later induction =>
      intro breaks
      obtain ⟨rest, split⟩ := exists_rest_of_piece? found
      have behind : text.drop piece.text.length = rest := by
        rw [split, List.drop_left]
      rw [behind] at induction
      have dropped : (text ++ '\n' :: more).drop piece.text.length = rest ++ '\n' :: more := by
        rw [split, List.append_assoc, List.drop_left]
      cases piece with
      | lexeme terminal spelling =>
          have still := piece?_append_newline found (by simp) more
          rw [scan?_of_lexeme still something]
          rw [show (Piece.lexeme terminal spelling).text = spelling from rfl] at dropped
          rw [dropped, induction, Option.map_map]
          rfl
      | trivia trivia =>
          cases trivia with
          | comment comment =>
              have still := piece?_append_newline found (by simp) more
              rw [scan?_of_trivia still something]
              rw [show (Piece.trivia (.comment comment)).text = (Trivia.comment comment).text
                from rfl] at dropped
              rw [dropped, induction]
              rfl
          | blank blanks =>
              have all := isSpace_of_piece?_blank found
              rw [show (Piece.trivia (.blank blanks)).text = blanks from rfl] at split
              rw [split, List.append_assoc, scan?_append_of_isSpace all, induction]
              rfl

theorem scan?_append_newline_of_cuts_nil {text : Text} {pieces : List Piece}
    (cuts : Cuts text pieces []) (more : Text) (breaks : Bool) :
    scan? breaks (text ++ '\n' :: more) =
      (scan? true more).map (plainTokens breaks pieces ++ ·) := by
  rw [scan?_append_newline cuts, List.nil_append, scan?_newline]

/-! ## Sources -/

/-- A source without its byte order mark. -/
def markless (source : Text) : Text :=
  if source.head? = some byteOrderMark then source.drop 1 else source

theorem markless_append {front : Text} (something : front ≠ []) (rest : Text) :
    markless (front ++ rest) = markless front ++ rest := by
  obtain ⟨first, others, rfl⟩ := List.exists_cons_of_ne_nil something
  by_cases marked : first = byteOrderMark <;> simp [markless, marked]

/-- How a source is cut into tokens. -/
theorem exists_pieces_of_tokens? {source : Text} {tokens : List Token}
    (cut : tokens? source = some tokens) :
    ∃ pieces lead, pieces? (markless source).length (markless source) = some pieces ∧
      tokens = assemble (lead.flatMap Trivia.text).length lead pieces ∧
      source = lead.flatMap Trivia.text ++ markless source ∧
      lead.any Trivia.breaksLine = false ∧ Token.commentsFrom 0 lead = [] := by
  unfold tokens? at cut
  split at cut
  · obtain rfl := Option.some.inj cut
    exact ⟨[], [], rfl, rfl, rfl, rfl, rfl⟩
  · rename_i character rest
    split at cut
    · rename_i marked
      obtain ⟨pieces, found, rfl⟩ := Option.map_eq_some_iff.mp cut
      have text : markless (character :: rest) = rest := by simp [markless, marked]
      refine ⟨pieces, [.blank [character]], by rw [text, found], rfl, by rw [text]; rfl, ?_, rfl⟩
      rw [marked]
      decide
    · rename_i unmarked
      obtain ⟨pieces, found, rfl⟩ := Option.map_eq_some_iff.mp cut
      have text : markless (character :: rest) = character :: rest := by simp [markless, unmarked]
      exact ⟨pieces, [], by rw [text, found], rfl, by rw [text]; rfl, rfl, rfl⟩

theorem map_plain_tokens? (source : Text) :
    (tokens? source).map (List.map Token.plain) = scan? false (markless source) := by
  cases cut : tokens? source with
  | none =>
      unfold tokens? at cut
      split at cut
      · simp at cut
      · rename_i character rest
        split at cut
        · rename_i marked
          have text : markless (character :: rest) = rest := by simp [markless, marked]
          rw [text, scan?, Option.map_eq_none_iff.mp cut]
          rfl
        · rename_i unmarked
          have text : markless (character :: rest) = character :: rest := by
            simp [markless, unmarked]
          rw [text, scan?, Option.map_eq_none_iff.mp cut]
          rfl
  | some tokens =>
      obtain ⟨pieces, lead, found, rfl, _, unbroken, _⟩ := exists_pieces_of_tokens? cut
      rw [scan?, found, Option.map_some, Option.map_some, map_plain_assemble, unbroken]

/-- A list of tokens cut behind one that is not the end of the source. -/
private theorem exists_of_assemble_eq {post : List Token} {token : Token}
    (unfinished : token.terminal ≠ .finish) (pieces : List Piece) :
    ∀ position lead front, assemble position lead pieces = front ++ token :: post →
      ∃ before after, pieces = before ++ .lexeme token.terminal token.text :: after ∧
        token.stop = position + ((before.flatMap Piece.text).length + token.text.length) ∧
        (front ++ [token]).map Token.plain =
          plainTokens (lead.any Trivia.breaksLine)
            (before ++ [.lexeme token.terminal token.text]) ∧
        post.map Token.plain = tokensOf false after := by
  induction pieces with
  | nil =>
      intro position lead front same
      rw [assemble] at same
      cases front with
      | nil =>
          obtain ⟨rfl, _⟩ := List.cons.inj same
          exact absurd rfl unfinished
      | cons first others =>
          have sizes := congrArg List.length same
          simp at sizes
  | cons piece rest induction =>
      intro position lead front same
      cases piece with
      | trivia trivia =>
          rw [assemble] at same
          obtain ⟨before, after, rfl, stop, early, late⟩ := induction _ _ _ same
          refine ⟨.trivia trivia :: before, after, rfl, ?_, ?_, late⟩
          · rw [stop, List.flatMap_cons, List.length_append]
            simp only [Piece.text]
            omega
          · rw [early]
            simp [List.any_append, plainTokens]
      | lexeme terminal text =>
          rw [assemble] at same
          cases front with
          | nil =>
              obtain ⟨rfl, rfl⟩ := List.cons.inj same
              refine ⟨[], rest, rfl, ?_, rfl, map_plain_assemble rest _ _⟩
              simp [Token.stop]
          | cons first others =>
              obtain ⟨rfl, later⟩ := List.cons.inj same
              obtain ⟨before, after, rfl, stop, early, late⟩ := induction _ _ _ later
              refine ⟨.lexeme terminal text :: before, after, rfl, ?_, ?_, late⟩
              · rw [stop, List.flatMap_cons, List.length_append]
                simp only [Piece.text]
                omega
              · rw [List.cons_append, List.map_cons, early]
                rfl

theorem scan?_nil (breaks : Bool) : scan? breaks [] = some [plainToken breaks .finish []] := rfl

theorem Cuts.split {rest : Text} {after : List Piece} (before : List Piece) :
    ∀ {text : Text}, Cuts text (before ++ after) rest →
      ∃ middle, Cuts text before middle ∧ Cuts middle after rest ∧
        text = before.flatMap Piece.text ++ middle := by
  induction before with
  | nil => exact fun cuts => ⟨_, .done, cuts, rfl⟩
  | cons piece others induction =>
      intro text cuts
      cases cuts with
      | piece found something later =>
          obtain ⟨middle, early, late, whole⟩ := induction later
          refine ⟨middle, .piece found something early, late, ?_⟩
          obtain ⟨behind, split⟩ := exists_rest_of_piece? found
          rw [split, List.drop_left] at whole
          rw [List.flatMap_cons, List.append_assoc, ← whole]
          exact split

/-- A source is cut at the end of a token. -/
theorem exists_cuts_at_token {source : Text} {front post : List Token} {token : Token}
    (cut : tokens? source = some (front ++ token :: post))
    (unfinished : token.terminal ≠ .finish) :
    ∃ pieces, Cuts (markless source) pieces (source.drop token.stop) ∧
      plainTokens false pieces = (front ++ [token]).map Token.plain ∧
      breaksAfter false pieces = false ∧
      scan? false (source.drop token.stop) = some (post.map Token.plain) := by
  obtain ⟨pieces, lead, found, same, text, unbroken, _⟩ := exists_pieces_of_tokens? cut
  obtain ⟨before, after, rfl, stop, early, late⟩ :=
    exists_of_assemble_eq unfinished pieces _ lead front same.symm
  have cuts := cuts_of_pieces? _ found
  rw [List.append_cons] at cuts
  obtain ⟨middle, first, second, whole⟩ := cuts.split
  have behind : source.drop token.stop = middle := by
    rw [stop, text, ← List.drop_drop, List.drop_left, whole]
    have size : (before.flatMap Piece.text).length + token.text.length =
        ((before ++ [Piece.lexeme token.terminal token.text]).flatMap Piece.text).length := by
      simp [Piece.text]
    rw [size, List.drop_left]
  rw [unbroken] at early
  refine ⟨_, behind ▸ first, early.symm, ?_, ?_⟩
  · rw [breaksAfter_append]
    rfl
  · rw [behind, scan?_of_cuts second, scan?_nil, late]
    rfl

end Go

end Scaffold
