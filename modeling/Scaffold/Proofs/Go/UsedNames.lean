import Scaffold.Proofs.Go.Identifiers
import Scaffold.Proofs.Go.Scanning

/-!
# Names that a text uses

A name behind a dot belongs to what stands before the dot.  Every other name in a
text is looked up around it, unless it is in a comment or in a string.
-/

namespace Scaffold

namespace Go

open Reader

/-- The names that are looked up around some pieces, given whether a dot stands before
them. -/
def usedNames : Bool → List Piece → List Text
  | _, [] => []
  | selected, .trivia _ :: rest => usedNames selected rest
  | selected, .lexeme terminal text :: rest =>
    let later := usedNames (terminal == .operator .dot) rest
    if (terminal == .identifier || terminal == .allocator) && !selected then text :: later
    else later

/-- Behind a dot or not, the text can be cut into pieces, around which these names are
looked up. -/
def Reads (selected : Bool) (text : Text) (names : List Text) : Prop :=
  (pieces? text.length text).map (usedNames selected) = some names

/-- The name is looked up around the text. -/
def RefersTo (text name : Text) : Prop :=
  ∃ names, Reads false text names ∧ name ∈ names

/-- The text stands between double quotes as it is. -/
def IsQuotable (text : Text) : Prop :=
  ∀ character ∈ text, character ≠ '"' ∧ character ≠ '\\' ∧ character ≠ '\n'

instance (text : Text) : Decidable (IsQuotable text) :=
  decidable_of_iff (text.all fun character =>
      character != '"' && character != '\\' && character != '\n')
    (by simp [IsQuotable, and_assoc])

variable {selected : Bool} {text rest word : Text} {names : List Text} {next : Char}

theorem Reads.eq (first : Reads selected text names) {others : List Text}
    (second : Reads selected text others) : names = others :=
  Option.some.inj (first.symm.trans second)

theorem refersTo_iff {name : Text} (reads : Reads false text names) :
    RefersTo text name ↔ name ∈ names := by
  constructor
  · rintro ⟨others, same, member⟩
    exact reads.eq same ▸ member
  · exact fun member => ⟨names, reads, member⟩

/-! ## Reading piece by piece -/

theorem reads_nil : Reads selected [] [] := rfl

theorem reads_of_trivia {trivia : Trivia} (found : piece? text = some (.trivia trivia))
    (something : trivia.text ≠ []) :
    Reads selected text names ↔ Reads selected (text.drop trivia.text.length) names := by
  rw [Reads, pieces?_of_piece? found something, Option.map_map]
  rfl

theorem reads_of_lexeme {spelling : Text} {terminal : Terminal}
    (found : piece? (spelling ++ rest) = some (.lexeme terminal spelling))
    (something : spelling ≠ []) (later : Reads (terminal == .operator .dot) rest names) :
    Reads selected (spelling ++ rest)
      (if (terminal == .identifier || terminal == .allocator) && !selected then spelling :: names
        else names) := by
  have behind : (spelling ++ rest).drop (Piece.lexeme terminal spelling).text.length = rest :=
    List.drop_left
  obtain ⟨pieces, cut, used⟩ := Option.map_eq_some_iff.mp later
  rw [Reads, pieces?_of_piece? found something, behind, cut, Option.map_some, Option.map_some,
    usedNames, used]

theorem Reads.blank (blank : Text.isSpace next = true) (later : Reads selected rest names) :
    Reads selected (next :: rest) names := by
  have run {first : Char} (space : Text.isSpace first = true) (behind : Text) :
      Reads selected (first :: behind) names ↔
        Reads selected (behind.dropWhile Text.isSpace) names := by
    have whole : (first :: behind).drop ((first :: behind).takeWhile Text.isSpace).length =
        behind.dropWhile Text.isSpace := by
      have split := @List.takeWhile_append_dropWhile Char Text.isSpace behind
      rw [List.takeWhile_cons_of_pos space, List.length_cons, List.drop_succ_cons]
      exact (congrArg (List.drop _) split.symm).trans List.drop_left
    rw [reads_of_trivia (piece?_of_isSpace space behind)
      (by simp [Trivia.text, List.takeWhile_cons_of_pos space]), Trivia.text, whole]
  rw [run blank]
  cases rest with
  | nil => exact later
  | cons following others =>
      cases spaced : Text.isSpace following with
      | true =>
          rw [List.dropWhile_cons_of_pos spaced]
          exact (run spaced others).mp later
      | false => rwa [List.dropWhile_cons_of_neg (by simp [spaced])]

theorem piece?_identifier (proper : IsIdentifier word) (ends : continuesName next = false) :
    piece? (word ++ next :: rest) = some (.lexeme (wordTerminal word) word) := by
  obtain ⟨starts, letters, -⟩ := isIdentifier_iff.mp proper
  refine piece?_word starts (List.all_eq_true.mp letters) ?_
  rintro _ ⟨⟩
  exact ends

theorem Reads.name (proper : IsIdentifier word) (ends : continuesName next = false)
    (later : Reads false (next :: rest) names) :
    Reads false (word ++ next :: rest) (word :: names) := by
  have found := @piece?_identifier rest _ _ proper ends
  rcases proper.isName with isName | isName
  · rw [isName] at found
    exact reads_of_lexeme found proper.ne_nil later
  · rw [isName] at found
    exact reads_of_lexeme found proper.ne_nil later

theorem Reads.keyword (reserved : word ∈ keywords.map Prod.fst)
    (ends : continuesName next = false) (later : Reads false (next :: rest) names) :
    Reads false (word ++ next :: rest) names := by
  have spelled : ∀ entry ∈ keywords, entry.1 ≠ [] ∧ entry.1.head?.any startsName = true ∧
      entry.1.all continuesName = true ∧ wordTerminal entry.1 = .keyword entry.2 := by
    decide +kernel
  obtain ⟨⟨word, keyword⟩, listed, rfl⟩ := List.mem_map.mp reserved
  obtain ⟨something, starts, letters, isKeyword⟩ := spelled _ listed
  have found : piece? (word ++ next :: rest) = some (.lexeme (wordTerminal word) word) := by
    refine piece?_word starts (List.all_eq_true.mp letters) ?_
    rintro _ ⟨⟩
    exact ends
  rw [show wordTerminal word = .keyword keyword from isKeyword] at found
  exact reads_of_lexeme found something later

theorem reads_of_operator {spelling : Text} {operator : Operator}
    (found : piece? (spelling ++ rest) = some (.lexeme (.operator operator) spelling))
    (something : spelling ≠ []) (other : operator ≠ .dot) (later : Reads false rest names) :
    Reads selected (spelling ++ rest) names := by
  have away : (Terminal.operator operator == .operator .dot) = false := by
    simpa using other
  exact reads_of_lexeme found something (away.symm ▸ later)

theorem Reads.mark {mark : Char} (known : mark ∈ ['(', ')', '\x7b', '\x7d', ','])
    (later : Reads false rest names) : Reads false (mark :: rest) names := by
  have found : ∃ operator, piece? ([mark] ++ rest) = some (.lexeme (.operator operator) [mark]) ∧
      operator ≠ .dot := by
    simp only [List.mem_cons, List.not_mem_nil, or_false] at known
    rcases known with rfl | rfl | rfl | rfl | rfl
    all_goals exact ⟨_, rfl, by decide⟩
  obtain ⟨operator, found, other⟩ := found
  exact reads_of_operator found (List.cons_ne_nil _ _) other later

theorem Reads.spaced {spelling : Text} (known : spelling ∈ [[':', '='], ['!', '='], ['=']])
    (later : Reads false rest names) : Reads false (spelling ++ ' ' :: rest) names := by
  have found : ∃ operator, piece? (spelling ++ ' ' :: rest) =
      some (.lexeme (.operator operator) spelling) ∧ operator ≠ .dot ∧ spelling ≠ [] := by
    simp only [List.mem_cons, List.not_mem_nil, or_false] at known
    rcases known with rfl | rfl | rfl
    all_goals exact ⟨_, rfl, by decide, List.cons_ne_nil _ _⟩
  obtain ⟨operator, found, other, something⟩ := found
  exact reads_of_operator found something other (later.blank (by decide))

theorem not_isDecimal_of_startsName (starts : startsName next = true) :
    isDecimal next = false := by
  refine Bool.eq_false_iff.mpr fun decimal => ?_
  rw [isDecimal, Text.isAsciiDigit, Bool.and_eq_true, decide_eq_true_eq,
    decide_eq_true_eq] at decimal
  have small : next.toNat < 128 := by omega
  rw [startsName, Text.isLetter, if_pos small, Bool.or_eq_true, beq_iff_eq] at starts
  rcases starts with letter | rfl
  · simp only [Text.isAsciiLetter, Bool.or_eq_true, Bool.and_eq_true, decide_eq_true_eq] at letter
    omega
  · exact absurd decimal (by decide)

theorem piece?_dot (proper : IsIdentifier word) (rest : Text) :
    piece? (['.'] ++ (word ++ rest)) = some (.lexeme (.operator .dot) ['.']) := by
  obtain ⟨first, others, rfl⟩ := List.exists_cons_of_ne_nil proper.ne_nil
  have starts : startsName first = true := (isIdentifier_iff.mp proper).1
  have noDigit : isDecimal first = false := not_isDecimal_of_startsName starts
  have noDot : '.' ≠ first := by
    rintro rfl
    exact absurd starts (by decide)
  have mark : mark? ('.' :: (first :: others ++ rest)) =
      some (.lexeme (.operator .dot) ['.']) := by
    simp [mark?, operators, noDot]
  rw [List.singleton_append, piece?_cons (by simp) (by simp), pieceAt?, mark]
  simp only [List.cons_append, List.head?_cons, Option.any_some, noDigit, Bool.and_false,
    Bool.or_false]
  rfl

theorem Reads.select (proper : IsIdentifier word) (ends : continuesName next = false)
    (later : Reads false (next :: rest) names) :
    Reads false ('.' :: (word ++ next :: rest)) names := by
  have member : Reads true (word ++ next :: rest) names := by
    have found := @piece?_identifier rest _ _ proper ends
    rcases proper.isName with isName | isName
    · rw [isName] at found
      exact reads_of_lexeme found proper.ne_nil later
    · rw [isName] at found
      exact reads_of_lexeme found proper.ne_nil later
  exact reads_of_lexeme (piece?_dot proper _) (List.cons_ne_nil _ _) member

theorem interpretedRest_of_isQuotable (quotable : IsQuotable text) :
    ∀ {fuel}, text.length < fuel → interpretedRest fuel (text ++ '"' :: rest) = some rest := by
  induction text with
  | nil =>
      rintro (_ | fuel) enough
      · cases enough
      · rfl
  | cons character others induction =>
      obtain ⟨⟨noQuote, noEscape, inLine⟩, later⟩ := List.forall_mem_cons.mp quotable
      rintro (_ | fuel) enough
      · cases enough
      · rw [List.cons_append, interpretedRest, if_neg noQuote, if_neg inLine, if_neg noEscape]
        exact induction later (Nat.lt_of_succ_lt_succ enough)

theorem Reads.quoted (quotable : IsQuotable text) (later : Reads false rest names) :
    Reads false ('"' :: (text ++ '"' :: rest)) names := by
  have size : text.length < ('"' :: (text ++ '"' :: rest)).length := by
    simp only [List.length_cons, List.length_append]
    omega
  have read : andThen (oneOf ['"']) (interpretedRest ('"' :: (text ++ '"' :: rest)).length)
      ('"' :: (text ++ '"' :: rest)) = some rest :=
    interpretedRest_of_isQuotable quotable size
  have whole : '"' :: (text ++ '"' :: rest) = '"' :: (text ++ ['"']) ++ rest := by simp
  have cut : upTo ('"' :: (text ++ '"' :: rest)) rest = '"' :: (text ++ ['"']) := by
    rw [whole, upTo_append]
  have found : piece? ('"' :: (text ++ '"' :: rest)) =
      some (.lexeme .interpreted ('"' :: (text ++ ['"']))) := by
    rw [piece?_cons (by simp) (by simp)]
    change lexeme? _ _ _ = _
    rw [lexeme?, read, Option.map_some, cut]
  rw [whole] at found ⊢
  exact reads_of_lexeme found (List.cons_ne_nil _ _) later

/-! ## Reading line by line -/

/-- The lines can be read before any text, and around them these names are looked up. -/
def ReadsLines (lines : List Text) (used : List Text) : Prop :=
  ∀ rest names, Reads false rest names → Reads false (Text.ofLines lines ++ rest) (used ++ names)

variable {lines others used more : List Text}

theorem readsLines_nil : ReadsLines [] [] := fun _ _ later => later

theorem readsLines_singleton {line : Text} (reads : ∀ rest names, Reads false rest names →
    Reads false (line ++ '\n' :: rest) (used ++ names)) : ReadsLines [line] used := by
  intro rest names later
  have whole : Text.ofLines [line] ++ rest = line ++ '\n' :: rest := by simp [Text.ofLines]
  rw [whole]
  exact reads rest names later

theorem ReadsLines.append (first : ReadsLines lines used) (second : ReadsLines others more) :
    ReadsLines (lines ++ others) (used ++ more) := by
  intro rest names later
  rw [Text.ofLines, List.flatMap_append, List.append_assoc, List.append_assoc]
  exact first _ _ (second rest names later)

theorem ReadsLines.reads (whole : ReadsLines lines used) : Reads false (Text.ofLines lines) used := by
  simpa using whole [] [] reads_nil

end Go

end Scaffold
