import Scaffold.Proofs.Go.Depth
import Scaffold.Proofs.Go.Spelling

/-!
# Import sections

What an import declaration holds behind its word is one import or a list of them
in parentheses.  It is read up to its last token without a look at what follows:
the tokens of a section are read as the section, whatever stands behind them.
-/

namespace Scaffold

namespace Go

open Grammar Rule

namespace Terminal

/-- The token is a string. -/
def IsString (terminal : Terminal) : Prop :=
  terminal = .interpreted ∨ terminal = .raw

/-- The token can stand before an imported path. -/
def NamesImport (terminal : Terminal) : Prop :=
  terminal = .operator .dot ∨ terminal.IsName

instance (terminal : Terminal) : Decidable terminal.IsName :=
  inferInstanceAs (Decidable (_ ∨ _))

instance (terminal : Terminal) : Decidable terminal.IsString :=
  inferInstanceAs (Decidable (_ ∨ _))

instance (terminal : Terminal) : Decidable terminal.NamesImport :=
  inferInstanceAs (Decidable (_ ∨ _))

theorem not_namesImport_of_isString {terminal : Terminal} (string : terminal.IsString) :
    ¬ terminal.NamesImport := by
  rcases string with rfl | rfl <;> decide

end Terminal

variable {layout : Layout} {head : Token} {rest : List Token}

/-! ## Single tokens -/

theorem parse_either_token_cons {one other : Terminal} :
    parse layout (either (token one) (token other)) (head :: rest) =
      if head.terminal = one ∨ head.terminal = other then some ([.leaf head], rest)
      else none := by
  have within : IsWithin (either (token one) (token other)) := rfl
  rw [parse_either within, parse_token_cons, parse_token_cons]
  by_cases first : head.terminal = one
  · simp [first]
  · rw [if_neg first, Option.none_or]
    simp only [first, false_or]

theorem parse_identifier_cons :
    parse layout identifier (head :: rest) =
      if head.terminal.IsName then some ([.leaf head], rest) else none :=
  parse_either_token_cons

theorem parse_string_cons :
    parse layout string (head :: rest) =
      if head.terminal.IsString then some ([.leaf head], rest) else none :=
  parse_either_token_cons

/-- The name before an imported path. -/
def importName : Rule Phrase :=
  either (mark .dot) identifier

theorem parse_importName_cons :
    parse layout importName (head :: rest) =
      if head.terminal.NamesImport then some ([.leaf head], rest) else none := by
  have shape : importName = either (token (.operator .dot)) identifier := rfl
  rw [shape, parse_either (by decide), parse_token_cons, parse_identifier_cons]
  by_cases dot : head.terminal = .operator .dot
  · simp [dot, Terminal.NamesImport]
  · by_cases name : head.terminal.IsName <;> simp [dot, name, Terminal.NamesImport]

/-! ## Imports -/

/-- The tree of an import: a path, perhaps behind a name. -/
inductive IsSpec : Tree → Prop where
  | plain {path : Token} (string : path.terminal.IsString) :
      IsSpec (.node .importSpec [.node .importPath [.leaf path]])
  | named {name path : Token} (names : name.terminal.NamesImport) (string : path.terminal.IsString) :
      IsSpec (.node .importSpec [.node .importName [.leaf name], .node .importPath [.leaf path]])

theorem parse_importPath_nil : parse layout (group .importPath string) [] = none := rfl

theorem parse_importPath_cons :
    parse layout (group .importPath string) (head :: rest) =
      if head.terminal.IsString then some ([.node .importPath [.leaf head]], rest) else none := by
  rw [parse_group (by decide), parse_string_cons]
  split <;> rfl

theorem parse_importSpec_cons :
    parse layout (refer .importSpec) (head :: rest) =
      if head.terminal.NamesImport then
        match rest with
        | [] => none
        | path :: behind =>
          if path.terminal.IsString then
            some ([.node .importSpec
              [.node .importName [.leaf head], .node .importPath [.leaf path]]], behind)
          else none
      else if head.terminal.IsString then
        some ([.node .importSpec [.node .importPath [.leaf head]]], rest)
      else none := by
  have shape : table .importSpec =
      group .importSpec
        (both (either (group .importName importName) empty) (group .importPath string)) := rfl
  rw [parse_refer, shape, parse_group (by decide), parse_both (by decide),
    parse_either (by decide), parse_group (by decide), parse_importName_cons]
  by_cases names : head.terminal.NamesImport
  · cases rest with
    | nil => simp [names, parse_importPath_nil]
    | cons path behind =>
        by_cases string : path.terminal.IsString <;> simp [names, string, parse_importPath_cons]
  · by_cases string : head.terminal.IsString <;> simp [names, string, parse_importPath_cons]

theorem IsSpec.exists_tokens {spec : Tree} (isSpec : IsSpec spec) :
    ∃ first others, spec.tokens = first :: others := by
  cases isSpec <;> exact ⟨_, _, rfl⟩

theorem IsSpec.parse_eq {spec : Tree} (isSpec : IsSpec spec) (rest : List Token) :
    parse layout (refer .importSpec) (spec.tokens ++ rest) = some ([spec], rest) := by
  cases isSpec with
  | @plain path string =>
      rw [show (Tree.node .importSpec [.node .importPath [.leaf path]]).tokens ++ rest =
        path :: rest from rfl, parse_importSpec_cons]
      simp [string, Terminal.not_namesImport_of_isString string]
  | @named name path names string =>
      rw [show (Tree.node .importSpec
          [.node .importName [.leaf name], .node .importPath [.leaf path]]).tokens ++ rest =
        name :: path :: rest from rfl, parse_importSpec_cons]
      simp [names, string]

theorem exists_isSpec_of_parse {tokens : List Token} {trees : List Tree}
    (result : parse layout (refer .importSpec) tokens = some (trees, rest)) :
    ∃ spec, IsSpec spec ∧ trees = [spec] := by
  cases tokens with
  | nil =>
      have nothing : parse layout (refer .importSpec) [] = none := rfl
      simp [nothing] at result
  | cons head others =>
      rw [parse_importSpec_cons] at result
      split at result
      · rename_i names
        cases others with
        | nil => simp at result
        | cons path behind =>
            simp only at result
            split at result
            · rename_i string
              exact ⟨_, .named names string, by simpa using (Prod.mk.inj (Option.some.inj result)).1.symm⟩
            · simp at result
      · split at result
        · rename_i string
          exact ⟨_, .plain string, (Prod.mk.inj (Option.some.inj result)).1.symm⟩
        · simp at result

/-! ## Import sections -/

theorem parse_terminator_cons :
    parse layout terminator (head :: rest) =
      if head.onNewLine then some ([], head :: rest)
      else if head.terminal = .operator .semicolon then some ([.leaf head], rest)
      else none := by
  have shape : terminator = either newLine (token (.operator .semicolon)) := rfl
  rw [shape, parse_either (by decide), parse_newLine_cons, parse_token_cons]
  cases head.onNewLine <;> simp

/-- An import behind the end of a line or a semicolon. -/
def importRow : Rule Phrase :=
  both terminator (refer .importSpec)

/-- The imports between parentheses. -/
def importRows : Rule Phrase :=
  either
    (both (both (refer .importSpec) (many importRow)) (either terminator empty))
    empty

/-- What follows the word `import`. -/
def imported : Rule Phrase :=
  either
    (both (mark .openParenthesis) (both (under .lines importRows) (mark .closeParenthesis)))
    (refer .importSpec)

/-- Further imports in parentheses. -/
inductive IsRows : List Tree → Prop where
  | nil : IsRows []
  | line {spec : Tree} {rest : List Tree} (isSpec : IsSpec spec)
      (breaks : spec.tokens.head?.any Token.onNewLine = true) (others : IsRows rest) :
      IsRows (spec :: rest)
  | semicolon {mark : Token} {spec : Tree} {rest : List Tree}
      (isMark : mark.terminal = .operator .semicolon) (sameLine : mark.onNewLine = false)
      (isSpec : IsSpec spec) (others : IsRows rest) : IsRows (.leaf mark :: spec :: rest)

/-- The end of the parentheses. -/
inductive IsClosing : List Tree → Prop where
  | bare {closing : Token} (isClosing : closing.terminal = .operator .closeParenthesis) :
      IsClosing [.leaf closing]
  | semicolon {mark closing : Token} (isMark : mark.terminal = .operator .semicolon)
      (sameLine : mark.onNewLine = false)
      (isClosing : closing.terminal = .operator .closeParenthesis) :
      IsClosing [.leaf mark, .leaf closing]

/-- What an import declaration holds behind its word: one import, or some in
parentheses. -/
inductive IsImported : List Tree → Prop where
  | single {spec : Tree} (isSpec : IsSpec spec) : IsImported [spec]
  | empty {opening closing : Token} (isOpening : opening.terminal = .operator .openParenthesis)
      (isClosing : closing.terminal = .operator .closeParenthesis) :
      IsImported [.leaf opening, .leaf closing]
  | listed {opening : Token} {spec : Tree} {rows closing : List Tree}
      (isOpening : opening.terminal = .operator .openParenthesis) (isSpec : IsSpec spec)
      (isRows : IsRows rows) (isClosing : IsClosing closing) :
      IsImported (.leaf opening :: spec :: (rows ++ closing))

theorem importRow_eq_none {tokens : List Token} {closing : List Tree}
    (isClosing : IsClosing closing) :
    parse layout importRow (Tree.tokensOfAll closing ++ tokens) = none := by
  rw [importRow, parse_both (by decide)]
  cases isClosing with
  | @bare closing isClosing =>
      rw [show Tree.tokensOfAll [.leaf closing] ++ tokens = closing :: tokens from rfl,
        parse_terminator_cons]
      cases closing.onNewLine <;>
        simp [isClosing, parse_importSpec_cons, Terminal.NamesImport, Terminal.IsName,
          Terminal.IsString]
  | @semicolon mark closing isMark sameLine isClosing =>
      rw [show Tree.tokensOfAll [.leaf mark, .leaf closing] ++ tokens =
        mark :: closing :: tokens from rfl, parse_terminator_cons]
      simp [isMark, sameLine, isClosing, parse_importSpec_cons, Terminal.NamesImport,
        Terminal.IsName, Terminal.IsString]

theorem IsRows.parse_eq {rows : List Tree} (isRows : IsRows rows)
    (stopped : parse layout importRow rest = none) :
    parse layout (many importRow) (Tree.tokensOfAll rows ++ rest) = some (rows, rest) := by
  induction isRows with
  | nil =>
      rw [show Tree.tokensOfAll [] ++ rest = rest from rfl, parse_many (by decide), stopped]
  | @line spec others isSpec breaks _ induction =>
      have row : parse layout importRow (spec.tokens ++ (Tree.tokensOfAll others ++ rest)) =
          some ([spec], Tree.tokensOfAll others ++ rest) := by
        obtain ⟨first, behind, tokens⟩ := isSpec.exists_tokens
        rw [tokens, List.head?_cons, Option.any_some] at breaks
        have same := @IsSpec.parse_eq layout spec isSpec (Tree.tokensOfAll others ++ rest)
        rw [tokens, List.cons_append] at same ⊢
        rw [importRow, parse_both (by decide), parse_terminator_cons]
        simp [breaks, same]
      rw [show Tree.tokensOfAll (spec :: others) = spec.tokens ++ Tree.tokensOfAll others from rfl,
        List.append_assoc, parse_many (by decide), row]
      simp [induction]
  | @semicolon mark spec others isMark sameLine isSpec _ induction =>
      have row : parse layout importRow
          (mark :: (spec.tokens ++ (Tree.tokensOfAll others ++ rest))) =
            some ([.leaf mark, spec], Tree.tokensOfAll others ++ rest) := by
        rw [importRow, parse_both (by decide), parse_terminator_cons]
        simp [isMark, sameLine, isSpec.parse_eq]
      rw [show Tree.tokensOfAll (.leaf mark :: spec :: others) ++ rest =
          mark :: (spec.tokens ++ (Tree.tokensOfAll others ++ rest)) by
        simp [Tree.tokensOfAll, Tree.tokens], parse_many (by decide), row]
      simp [induction]

/-- Behind the last import its terminator is read, if there is one. -/
private theorem parse_importRows {spec : Tree} {rows closing : List Tree} (isSpec : IsSpec spec)
    (isRows : IsRows rows) (isClosing : IsClosing closing) :
    ∃ ending last, closing = ending ++ [.leaf last] ∧
      last.terminal = .operator .closeParenthesis ∧
      parse layout importRows
          (spec.tokens ++ (Tree.tokensOfAll rows ++ (Tree.tokensOfAll closing ++ rest))) =
        some (spec :: (rows ++ ending), last :: rest) := by
  have stopped : parse layout importRow (Tree.tokensOfAll closing ++ rest) = none :=
    importRow_eq_none isClosing
  have many := isRows.parse_eq stopped
  rw [importRows, parse_either (by decide), parse_both (by decide), parse_both (by decide),
    isSpec.parse_eq]
  simp only [Option.bind_some, many, Option.map_some]
  cases isClosing with
  | @bare closing isClosing =>
      refine ⟨[], closing, rfl, isClosing, ?_⟩
      rw [show Tree.tokensOfAll [.leaf closing] ++ rest = closing :: rest from rfl,
        parse_either (by decide), parse_terminator_cons]
      cases closing.onNewLine <;> simp [isClosing]
  | @semicolon mark closing isMark sameLine isClosing =>
      refine ⟨[.leaf mark], closing, rfl, isClosing, ?_⟩
      rw [show Tree.tokensOfAll [.leaf mark, .leaf closing] ++ rest =
        mark :: closing :: rest from rfl, parse_either (by decide), parse_terminator_cons]
      simp [isMark, sameLine]

/-- The tokens of what is imported are read as that, whatever follows. -/
theorem IsImported.parse_eq {body : List Tree} (isImported : IsImported body)
    (rest : List Token) :
    parse layout imported (Tree.tokensOfAll body ++ rest) = some (body, rest) := by
  have parenthesis {opening : Token} {tokens : List Token}
      (isOpening : opening.terminal = .operator .openParenthesis) :
      parse layout (mark .openParenthesis) (opening :: tokens) =
        some ([.leaf opening], tokens) := by
    rw [mark, parse_token_cons, if_pos isOpening]
  rw [imported, parse_either (by decide), parse_both (by decide)]
  cases isImported with
  | @single spec isSpec =>
      have tokens : Tree.tokensOfAll [spec] ++ rest = spec.tokens ++ rest := by
        simp [Tree.tokensOfAll]
      have other : parse layout (mark .openParenthesis) (spec.tokens ++ rest) = none := by
        cases isSpec with
        | @plain path string =>
            rw [show (Tree.node .importSpec [.node .importPath [.leaf path]]).tokens ++ rest =
              path :: rest from rfl, mark, parse_token_cons]
            rcases string with interpreted | raw <;> simp [*]
        | @named name path names string =>
            rw [show (Tree.node .importSpec
                [.node .importName [.leaf name], .node .importPath [.leaf path]]).tokens ++ rest =
              name :: path :: rest from rfl, mark, parse_token_cons]
            rcases names with dot | identifier | allocator <;> simp [*]
      rw [tokens, other, isSpec.parse_eq]
      rfl
  | @empty opening closing isOpening isClosing =>
      have noSpec : parse .lines (refer .importSpec) (closing :: rest) = none := by
        rw [parse_importSpec_cons]
        simp [isClosing, Terminal.NamesImport, Terminal.IsName, Terminal.IsString]
      rw [show Tree.tokensOfAll [.leaf opening, .leaf closing] ++ rest =
        opening :: closing :: rest from rfl, parenthesis isOpening, Option.bind_some,
        parse_both (by decide), parse_under (by decide), importRows, parse_either (by decide),
        parse_both (by decide), parse_both (by decide), noSpec]
      simp [mark, parse_token_cons, isClosing]
  | @listed opening spec rows closing isOpening isSpec isRows isClosing =>
      obtain ⟨ending, last, rfl, isLast, inner⟩ :=
        parse_importRows isSpec isRows isClosing
      have tokens : Tree.tokensOfAll (.leaf opening :: spec :: (rows ++ (ending ++ [.leaf last]))) ++
          rest = opening :: (spec.tokens ++ (Tree.tokensOfAll rows ++
            (Tree.tokensOfAll (ending ++ [.leaf last]) ++ rest))) := by
        simp [Tree.tokensOfAll, Tree.tokens, Tree.tokensOfAll_append]
      rw [tokens, parenthesis isOpening, Option.bind_some, parse_both (by decide),
        parse_under (by decide), inner]
      simp [mark, parse_token_cons, isLast]

/-! ### What is read as imports -/

private theorem exists_terminator_of_parse {tokens : List Token} {trees : List Tree}
    (result : parse layout terminator tokens = some (trees, rest)) :
    (trees = [] ∧ rest = tokens ∧ tokens.head?.any Token.onNewLine = true) ∨
      ∃ mark, trees = [.leaf mark] ∧ tokens = mark :: rest ∧
        mark.terminal = .operator .semicolon ∧ mark.onNewLine = false := by
  cases tokens with
  | nil =>
      have nothing : parse layout terminator [] = none := rfl
      simp [nothing] at result
  | cons head others =>
      rw [parse_terminator_cons] at result
      cases breaks : head.onNewLine with
      | true =>
          simp only [breaks, if_true, Option.some.injEq, Prod.mk.injEq] at result
          exact .inl ⟨result.1.symm, result.2.symm, by simp [breaks]⟩
      | false =>
          simp only [breaks, Bool.false_eq_true, if_false] at result
          split at result
          · rename_i isMark
            simp only [Option.some.injEq, Prod.mk.injEq] at result
            exact .inr ⟨head, result.1.symm, by rw [result.2], isMark, breaks⟩
          · simp at result

private theorem head?_of_parse_importSpec {tokens : List Token} {spec : Tree}
    (result : parse layout (refer .importSpec) tokens = some ([spec], rest)) (isSpec : IsSpec spec) :
    spec.tokens.head? = tokens.head? := by
  have whole := tokens_of_read _ result
  obtain ⟨first, others, same⟩ := isSpec.exists_tokens
  rw [← whole]
  simp [Tree.tokensOfAll, same]

theorem isRows_of_parse {tokens rest : List Token} {trees : List Tree}
    (result : parse layout (many importRow) tokens = some (trees, rest)) : IsRows trees := by
  rw [parse_many (by decide)] at result
  cases row : parse layout importRow tokens with
  | none =>
      simp only [row, Option.some.injEq, Prod.mk.injEq] at result
      rw [← result.1]
      exact .nil
  | some found =>
      obtain ⟨front, middle⟩ := found
      have less := length_lt_of_takes isBounded_table _ rfl row
      simp only [row] at result
      obtain ⟨⟨others, behind⟩, later, same⟩ := Option.map_eq_some_iff.mp result
      have isRows : IsRows others := isRows_of_parse later
      rw [importRow, parse_both (by decide)] at row
      obtain ⟨⟨ending, start⟩, ended, row⟩ := Option.bind_eq_some_iff.mp row
      obtain ⟨⟨specs, stop⟩, read, pair⟩ := Option.map_eq_some_iff.mp row
      obtain ⟨spec, isSpec, rfl⟩ := exists_isSpec_of_parse read
      simp only [Prod.mk.injEq] at pair same
      rw [← same.1, ← pair.1]
      have head := head?_of_parse_importSpec read isSpec
      rcases exists_terminator_of_parse ended with
        ⟨rfl, rfl, breaks⟩ | ⟨mark, rfl, rfl, isMark, sameLine⟩
      · exact .line isSpec (by rwa [head]) isRows
      · exact .semicolon isMark sameLine isSpec isRows
termination_by tokens.length

private theorem exists_of_parse_mark {tokens : List Token} {trees : List Tree}
    {operator : Operator} (result : parse layout (mark operator) tokens = some (trees, rest)) :
    ∃ head, trees = [.leaf head] ∧ head.terminal = .operator operator := by
  cases tokens with
  | nil => simp [mark] at result
  | cons head others =>
      rw [mark, parse_token_cons] at result
      split at result
      · rename_i isMark
        exact ⟨head, (Prod.mk.inj (Option.some.inj result)).1.symm, isMark⟩
      · simp at result

/-- Between the parentheses there are no imports, or some with a terminator that
may be missing. -/
private theorem shape_of_parse_importRows {tokens : List Token} {trees : List Tree}
    (result : parse layout importRows tokens = some (trees, rest)) :
    trees = [] ∨ ∃ spec rows ending, IsSpec spec ∧ IsRows rows ∧ trees = spec :: (rows ++ ending) ∧
      (ending = [] ∨ ∃ mark, ending = [.leaf mark] ∧ mark.terminal = .operator .semicolon ∧
        mark.onNewLine = false) := by
  rw [importRows, parse_either (by decide)] at result
  rcases Option.or_eq_some_iff.mp result with some | ⟨_, nothing⟩
  · rw [parse_both (by decide), parse_both (by decide)] at some
    obtain ⟨⟨front, middle⟩, imports, some⟩ := Option.bind_eq_some_iff.mp some
    obtain ⟨⟨ending, stop⟩, ended, pair⟩ := Option.map_eq_some_iff.mp some
    obtain ⟨⟨first, behind⟩, read, imports⟩ := Option.bind_eq_some_iff.mp imports
    obtain ⟨⟨rows, last⟩, many, inner⟩ := Option.map_eq_some_iff.mp imports
    obtain ⟨spec, isSpec, rfl⟩ := exists_isSpec_of_parse read
    simp only [Prod.mk.injEq] at pair inner
    refine .inr ⟨spec, rows, ending, isSpec, isRows_of_parse many, ?_, ?_⟩
    · rw [← pair.1, ← inner.1]
      simp
    · rw [parse_either (by decide)] at ended
      rcases Option.or_eq_some_iff.mp ended with some | ⟨_, nothing⟩
      · rcases exists_terminator_of_parse some with ⟨none, _⟩ | ⟨mark, same, _, isMark, line⟩
        · exact .inl none
        · exact .inr ⟨mark, same, isMark, line⟩
      · simp only [parse_empty, Option.some.injEq, Prod.mk.injEq] at nothing
        exact .inl nothing.1.symm
  · simp only [parse_empty, Option.some.injEq, Prod.mk.injEq] at nothing
    exact .inl nothing.1.symm

theorem isImported_of_parse {tokens : List Token} {body : List Tree}
    (result : parse layout imported tokens = some (body, rest)) : IsImported body := by
  rw [imported, parse_either (by decide)] at result
  rcases Option.or_eq_some_iff.mp result with several | ⟨_, one⟩
  · rw [parse_both (by decide)] at several
    obtain ⟨⟨opened, inside⟩, isOpened, several⟩ := Option.bind_eq_some_iff.mp several
    obtain ⟨⟨held, behind⟩, inner, pair⟩ := Option.map_eq_some_iff.mp several
    rw [parse_both (by decide), parse_under (by decide)] at inner
    obtain ⟨⟨imports, middle⟩, rows, inner⟩ := Option.bind_eq_some_iff.mp inner
    obtain ⟨⟨closed, stop⟩, isClosed, last⟩ := Option.map_eq_some_iff.mp inner
    obtain ⟨opening, rfl, isOpening⟩ := exists_of_parse_mark isOpened
    obtain ⟨closing, rfl, isClosing⟩ := exists_of_parse_mark isClosed
    simp only [Prod.mk.injEq] at pair last
    rw [← pair.1, ← last.1]
    rcases shape_of_parse_importRows rows with
      rfl | ⟨spec, rows, ending, isSpec, isRows, rfl, rfl | ⟨mark, rfl, isMark, line⟩⟩
    · exact .empty isOpening isClosing
    · simpa using IsImported.listed isOpening isSpec isRows (.bare isClosing)
    · simpa using IsImported.listed isOpening isSpec isRows (.semicolon isMark line isClosing)
  · obtain ⟨spec, isSpec, rfl⟩ := exists_isSpec_of_parse one
    exact .single isSpec

end Go

end Scaffold
