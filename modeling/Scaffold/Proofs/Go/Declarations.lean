import Scaffold.Proofs.Go.ImportSection
import Scaffold.Proofs.Go.Items
import Scaffold.Proofs.Go.Likeness

/-!
# Package clauses and import declarations

The name of the package is the word behind the first `package` of a file, and
what a file imports stands in tokens of its own.  Behind either declaration the
rest of the file is read as if it stood alone.
-/

namespace Scaffold

namespace Go

open Grammar Rule

variable {layout : Layout} {word : Keyword} {barrier : Token}

/-- A construct that opens with a word. -/
theorem parse_opened {kind : Kind} {terminal : Terminal} {body : Rule Phrase}
    (within : IsWithin (group kind (both (token terminal) body))) (head : Token)
    (rest : List Token) :
    parse layout (group kind (both (token terminal) body)) (head :: rest) =
      if head.terminal = terminal then
        (parse layout body rest).map fun found =>
          ([.node kind (.leaf head :: found.1)], found.2)
      else none := by
  have inner : IsWithin (both (token terminal) body) := by
    simp only [IsWithin, isWithin, Bool.and_eq_true] at within
    simpa [IsWithin, isWithin] using within.1
  rw [parse_group within, parse_both inner, parse_token_cons]
  split
  · simp only [Option.bind_some]
    cases parse layout body rest <;> simp
  · rfl

/-! ## Declarations in a file -/

/-- The tree of a package clause. -/
def clauseTree (opening name : Token) : Tree :=
  .node .packageClause [.leaf opening, .node .name [.leaf name]]

/-- The tree of an import declaration. -/
def declarationTree (opening : Token) (body : List Tree) : Tree :=
  .node .importDeclaration (.leaf opening :: body)

namespace SourceFile

/-- The declarations of a file, each behind its word. -/
private theorem fileDeclaration_eq :
    fileDeclaration =
      either (group .packageClause (both (token (.keyword .packageWord)) (group .name identifier)))
        (either (group .importDeclaration (both (token (.keyword .importWord)) imported))
          (either
            (group .methodDeclaration (both (token (.keyword .funcWord))
              (both (group .receiver (refer .parameters)) (both (group .name identifier) signature))))
            (group .functionDeclaration (both (token (.keyword .funcWord))
              (both identifier (both (maybe (refer .typeParameters)) signature)))))) :=
  rfl

theorem items?_package (isWord : barrier.terminal = .keyword .packageWord) (rest : List Token) :
    items? (barrier :: rest) =
      (parse .lines (group .name identifier) rest).bind fun name =>
        (after? name.2).map (.node .packageClause (.leaf barrier :: name.1) :: ·) := by
  rw [items?_cons rfl isWord, fileDeclaration_eq, parse_either (by decide),
    parse_either (by decide), parse_either (by decide), parse_opened (by decide),
    parse_opened (by decide), parse_opened (by decide), parse_opened (by decide)]
  simp only [isWord, if_true, reduceCtorEq, Terminal.keyword.injEq, if_false, Option.or_none]
  cases parse .lines (group .name identifier) rest <;> rfl

theorem items?_import (isWord : barrier.terminal = .keyword .importWord) (rest : List Token) :
    items? (barrier :: rest) =
      (parse .lines imported rest).bind fun body =>
        (after? body.2).map (declarationTree barrier body.1 :: ·) := by
  rw [items?_cons rfl isWord, fileDeclaration_eq, parse_either (by decide),
    parse_either (by decide), parse_either (by decide), parse_opened (by decide),
    parse_opened (by decide), parse_opened (by decide), parse_opened (by decide)]
  simp only [isWord, if_true, reduceCtorEq, Terminal.keyword.injEq, if_false, Option.or_none,
    Option.none_or]
  cases parse .lines imported rest <;> rfl

theorem items?_clauseTree (isWord : barrier.terminal = .keyword .packageWord) {name : Token}
    (isName : name.terminal.IsName) (rest : List Token) :
    items? (barrier :: name :: rest) = (after? rest).map (clauseTree barrier name :: ·) := by
  rw [items?_package isWord, parse_group (by decide), parse_identifier_cons, if_pos isName]
  rfl

theorem exists_clauseTree (isWord : barrier.terminal = .keyword .packageWord)
    {rest : List Token} {items : List Tree} (result : items? (barrier :: rest) = some items) :
    ∃ name behind later, name.terminal.IsName ∧ rest = name :: behind ∧
      items = clauseTree barrier name :: later ∧ after? behind = some later := by
  cases rest with
  | nil =>
      rw [items?_package isWord] at result
      have nothing : parse .lines (group .name identifier) [] = none := rfl
      simp [nothing] at result
  | cons name behind =>
      by_cases isName : name.terminal.IsName
      · rw [items?_clauseTree isWord isName] at result
        obtain ⟨later, followed, same⟩ := Option.map_eq_some_iff.mp result
        exact ⟨name, behind, later, isName, rfl, same.symm, followed⟩
      · rw [items?_package isWord, parse_group (by decide), parse_identifier_cons,
          if_neg isName] at result
        simp at result

theorem items?_declarationTree (isWord : barrier.terminal = .keyword .importWord)
    {body : List Tree} (isImported : IsImported body) (rest : List Token) :
    items? (barrier :: (Tree.tokensOfAll body ++ rest)) =
      (after? rest).map (declarationTree barrier body :: ·) := by
  rw [items?_import isWord, isImported.parse_eq]
  rfl

theorem exists_declarationTree (isWord : barrier.terminal = .keyword .importWord)
    {rest : List Token} {items : List Tree} (result : items? (barrier :: rest) = some items) :
    ∃ body behind later, IsImported body ∧ rest = Tree.tokensOfAll body ++ behind ∧
      items = declarationTree barrier body :: later ∧ after? behind = some later := by
  rw [items?_import isWord] at result
  obtain ⟨⟨body, behind⟩, read, result⟩ := Option.bind_eq_some_iff.mp result
  obtain ⟨later, followed, same⟩ := Option.map_eq_some_iff.mp result
  exact ⟨body, behind, later, isImported_of_parse read, (tokens_of_read _ read).symm, same.symm,
    followed⟩

end SourceFile

/-- The word that a construct opens with, if it stands only at file level. -/
def Kind.word? : Kind → Option Keyword
  | packageClause => some .packageWord
  | importDeclaration => some .importWord
  | _ => none

/-- The rule begins with a word. -/
def beginsWith (word : Keyword) : Rule Phrase → Bool
  | .both (.token terminal) _ => terminal == .keyword word
  | _ => false

theorem beginsWith_of_mem_groups (phrase : Phrase) :
    ∀ entry ∈ groups (table phrase), entry.1.word?.all (beginsWith · entry.2) = true := by
  cases phrase <;> decide

theorem beginsWith_of_mem_groups_file :
    ∀ entry ∈ groups file, entry.1.word?.all (beginsWith · entry.2) = true := by
  decide

namespace SourceFile

/-- Package clauses and import declarations hold their words. -/
theorem exists_word_of_mem_items {tokens : List Token} {items : List Tree}
    (result : items? tokens = some items) {kind : Kind} {children : List Tree}
    (listed : .node kind children ∈ items) (opens : kind.word? = some word) :
    ∃ opening ∈ (Tree.node kind children).tokens, opening.terminal = .keyword word := by
  have whole : parse .lines file tokens = some (items, []) := by
    unfold items? at result
    split at result
    · rename_i read
      rw [read, Option.some.inj result]
    · simp at result
  have inside : Tree.node kind children ∈ Tree.subtreesOfAll items :=
    Tree.mem_subtreesOfAll.mpr ⟨_, listed, Tree.mem_subtrees_self _⟩
  obtain ⟨body, begins, fuel, layout, before, after, read⟩ :=
    isReadBy_of_read (fun kind body => kind.word?.all (beginsWith · body) = true)
      beginsWith_of_mem_groups _ beginsWith_of_mem_groups_file whole _ _ inside
  rw [opens, Option.all_some] at begins
  unfold beginsWith at begins
  split at begins
  · rename_i terminal inner
    obtain _ | fuel := fuel
    · simp [Rule.read] at read
    · obtain ⟨front, middle, back, one, _, rfl⟩ := read_both_eq_some.mp read
      obtain _ | fuel := fuel
      · simp [Rule.read] at one
      · obtain ⟨opening, _, fits, rfl⟩ := read_token_eq_some.mp one
        refine ⟨opening, by simp [Tree.tokens, Tree.tokensOfAll], ?_⟩
        rw [fits]
        simpa using begins
  · simp at begins

private theorem cut_at_word (word : Keyword) (tokens : List Token) :
    (∀ token ∈ tokens, token.terminal ≠ .keyword word) ∨
      ∃ front barrier rest, tokens = front ++ barrier :: rest ∧
        barrier.terminal = .keyword word ∧ ∀ token ∈ front, token.terminal ≠ .keyword word := by
  cases found : tokens.find? (·.terminal == .keyword word) with
  | none =>
      left
      simpa using found
  | some barrier =>
      right
      obtain ⟨isWord, front, rest, cut, free⟩ := List.find?_eq_some_iff_append.mp found
      exact ⟨front, barrier, rest, cut, by simpa using isWord, by simpa using free⟩

/-- A readable file is cut at the first word that opens some construct. -/
theorem exists_of_items? (opens : word.opensFile = true) {tokens : List Token}
    {items : List Tree} (result : items? tokens = some items) :
    (∀ token ∈ tokens, token.terminal ≠ .keyword word) ∨
      ∃ front barrier rest before later, tokens = front ++ barrier :: rest ∧
        barrier.terminal = .keyword word ∧ (∀ token ∈ front, token.terminal ≠ .keyword word) ∧
        items = before ++ later ∧ Tree.tokensOfAll before = front ∧
        items? (barrier :: rest) = some later := by
  refine (cut_at_word word tokens).imp_right ?_
  rintro ⟨front, barrier, rest, rfl, isWord, free⟩
  obtain ⟨outcome, whole, outcomes⟩ := items?_append opens isWord front
  rw [outcomes] at result
  obtain ⟨before, same, result⟩ := Option.bind_eq_some_iff.mp result
  obtain ⟨later, read, rfl⟩ := Option.map_eq_some_iff.mp result
  exact ⟨front, barrier, rest, before, later, rfl, isWord, free, rfl, whole before same, read⟩

/-- What is behind a declaration is the rest of a file, perhaps behind a semicolon. -/
theorem of_after? {tokens : List Token} {items : List Tree} (result : after? tokens = some items) :
    items? tokens = some items ∨
      ∃ mark rest later, tokens = mark :: rest ∧ mark.terminal = .operator .semicolon ∧
        items = .leaf mark :: later ∧ items? rest = some later := by
  cases tokens with
  | nil => simp [after?] at result
  | cons head rest =>
      rw [after?] at result
      split at result
      · exact .inl result
      · split at result
        · rename_i isMark
          obtain ⟨later, read, rfl⟩ := Option.map_eq_some_iff.mp result
          exact .inr ⟨head, rest, later, rfl, isMark, rfl, read⟩
        · split at result
          · exact .inl result
          · simp at result

/-! ## The name of the package -/

/-- No construct opens with a word that is not among the tokens. -/
theorem filter_isA_eq_nil {tokens : List Token} {items part : List Tree}
    (result : items? tokens = some items) (included : part ⊆ items) {kind : Kind}
    (opens : kind.word? = some word)
    (free : ∀ token ∈ Tree.tokensOfAll part, token.terminal ≠ .keyword word) :
    part.filter (Tree.isA kind) = [] := by
  rw [List.filter_eq_nil_iff]
  intro tree member isA
  cases tree with
  | leaf token => simp [Tree.isA, Tree.kind?] at isA
  | node other children =>
      simp only [Tree.isA, Tree.kind?, beq_iff_eq, Option.some.injEq] at isA
      subst isA
      obtain ⟨opening, inside, isWord⟩ :=
        exists_word_of_mem_items result (included member) opens
      refine free opening ?_ isWord
      apply Tree.tokens_subset_of_mem_subtreesOfAll _ _ inside
      exact Tree.mem_subtreesOfAll.mpr ⟨_, member, Tree.mem_subtrees_self _⟩

/-- The word behind the first `package`. -/
def wordBehindPackage (tokens : List Token) : Option Text :=
  match tokens.dropWhile (·.terminal != .keyword .packageWord) with
  | _ :: name :: _ => some name.text
  | _ => none

theorem wordBehindPackage_append {front : List Token}
    (free : ∀ token ∈ front, token.terminal ≠ .keyword .packageWord)
    (isWord : barrier.terminal = .keyword .packageWord) (name : Token) (rest : List Token) :
    wordBehindPackage (front ++ barrier :: name :: rest) = some name.text := by
  rw [wordBehindPackage, List.dropWhile_append_of_pos (by simpa using free),
    List.dropWhile_cons_of_neg (by simpa using isWord)]

/-- The tokens and trees of a file around its first package clause. -/
structure ClauseAt (tokens : List Token) (items : List Tree) (front : List Token)
    (opening name : Token) (behind : List Token) (before later : List Tree) : Prop where
  tokens_eq : tokens = front ++ opening :: name :: behind
  free : ∀ token ∈ front, token.terminal ≠ .keyword .packageWord
  isWord : opening.terminal = .keyword .packageWord
  isName : name.terminal.IsName
  items_eq : items = before ++ clauseTree opening name :: later
  before_eq : Tree.tokensOfAll before = front
  followed : after? behind = some later
  /-- No clause stands before it. -/
  first : before.filter (Tree.isA .packageClause) = []

/-- A file has no package clause and no word for one, or it is cut around the
first. -/
theorem exists_clauseAt {tokens : List Token} {items : List Tree}
    (result : items? tokens = some items) :
    ((∀ token ∈ tokens, token.terminal ≠ .keyword .packageWord) ∧
        items.filter (Tree.isA .packageClause) = []) ∨
      ∃ front opening name behind before later,
        ClauseAt tokens items front opening name behind before later := by
  rcases @exists_of_items? .packageWord rfl _ _ result with
    free | ⟨front, opening, rest, before, later, rfl, isWord, free, rfl, whole, read⟩
  · refine .inl ⟨free, filter_isA_eq_nil result (List.Subset.refl _) rfl ?_⟩
    rwa [tokensOfAll_of_items? result]
  · obtain ⟨name, behind, later, isName, rfl, rfl, followed⟩ := exists_clauseTree isWord read
    have first : before.filter (Tree.isA .packageClause) = [] := by
      apply filter_isA_eq_nil result (List.subset_append_left _ _) rfl
      rwa [whole]
    exact .inr ⟨front, opening, name, behind, before, later, rfl, free, isWord, isName, rfl, whole,
      followed, first⟩

namespace ClauseAt

variable {tokens front behind : List Token} {items before later : List Tree}
  {opening name : Token}

theorem packageClause?_eq (cut : ClauseAt tokens items front opening name behind before later)
    (source : Text) :
    (SourceFile.mk source items).packageClause? = some (clauseTree opening name) := by
  simp [packageClause?, topLevel, cut.items_eq, cut.first, clauseTree, Tree.isA, Tree.kind?]

end ClauseAt

theorem packageName?_of_items? {tokens : List Token} {items : List Tree}
    (result : items? tokens = some items) (source : Text) :
    (SourceFile.mk source items).packageName? = wordBehindPackage tokens := by
  rcases exists_clauseAt result with
    ⟨free, nothing⟩ | ⟨front, opening, name, behind, before, later, cut⟩
  · have skipped : tokens.dropWhile (·.terminal != .keyword .packageWord) = [] := by
      rw [← List.append_nil tokens, List.dropWhile_append_of_pos (by simpa using free)]
      rfl
    simp [packageName?, packageClause?, topLevel, nothing, wordBehindPackage, skipped]
  · rw [packageName?, cut.packageClause?_eq, cut.tokens_eq,
      wordBehindPackage_append cut.free cut.isWord]
    simp [clauseName, clauseTree, Tree.parts, Tree.children, Tree.isA, Tree.kind?, Tree.text,
      Tree.tokens, Tree.tokensOfAll]

/-! ## What a file imports -/

/-- What the declarations among some trees import. -/
def importsOf (items : List Tree) : List Import :=
  (items.filter (Tree.isA .importDeclaration)).flatMap fun declaration =>
    (importSpecs declaration).map importOf

@[simp] theorem importsOf_append (left right : List Tree) :
    importsOf (left ++ right) = importsOf left ++ importsOf right := by
  simp [importsOf]

theorem importsOf_declarationTree (opening : Token) (body later : List Tree) :
    importsOf (declarationTree opening body :: later) =
      (importSpecs (declarationTree opening body)).map importOf ++ importsOf later := rfl

/-- Every import declaration of a file is the word with what it imports. -/
theorem isImported_of_mem_items {tokens : List Token} {items : List Tree}
    (result : items? tokens = some items) {declaration : Tree} (listed : declaration ∈ items)
    (isA : declaration.isA .importDeclaration = true) :
    ∃ opening body, opening.terminal = .keyword .importWord ∧ IsImported body ∧
      declaration = declarationTree opening body := by
  -- Behind each declaration a shorter file is read.
  induction size : tokens.length using Nat.strongRecOn generalizing tokens items with
  | ind size induction =>
      rcases @exists_of_items? .importWord rfl _ _ result with
        free | ⟨front, barrier, rest, before, later, rfl, isWord, free, rfl, whole, read⟩
      · have nothing : items.filter (Tree.isA .importDeclaration) = [] := by
          apply filter_isA_eq_nil result (List.Subset.refl _) rfl
          rwa [tokensOfAll_of_items? result]
        exact absurd isA (List.filter_eq_nil_iff.mp nothing declaration listed)
      · have nothing : before.filter (Tree.isA .importDeclaration) = [] := by
          apply filter_isA_eq_nil result (List.subset_append_left _ _) rfl
          rwa [whole]
        obtain ⟨body, behind, others, isImported, rfl, rfl, followed⟩ :=
          exists_declarationTree isWord read
        simp only [List.length_append, List.length_cons] at size
        rcases List.mem_append.mp listed with early | late
        · exact absurd isA (List.filter_eq_nil_iff.mp nothing declaration early)
        · rcases List.mem_cons.mp late with rfl | inside
          · exact ⟨barrier, body, isWord, isImported, rfl⟩
          · rcases of_after? followed with
              direct | ⟨mark, tail, trees, rfl, _, rfl, direct⟩
            · exact induction _ (by omega) direct inside rfl
            · rcases List.mem_cons.mp inside with rfl | deeper
              · simp [Tree.isA, Tree.kind?] at isA
              · simp only [List.length_cons] at size
                exact induction _ (by omega) direct deeper rfl

/-- The imports among the parts of a declaration. -/
def specsOf (body : List Tree) : List Tree :=
  body.filter (Tree.isA .importSpec)

theorem filter_subtrees_of_isSpec {spec : Tree} (isSpec : IsSpec spec) :
    spec.subtrees.filter (Tree.isA .importSpec) = [spec] := by
  cases isSpec <;> rfl

theorem isA_importSpec_of_isSpec {spec : Tree} (isSpec : IsSpec spec) :
    spec.isA .importSpec = true := by
  cases isSpec <;> rfl

/-- A declaration holds single tokens and imports. -/
theorem exists_leaf_or_isSpec_of_mem {body : List Tree} (isImported : IsImported body)
    {part : Tree} (listed : part ∈ body) : (∃ token, part = .leaf token) ∨ IsSpec part := by
  have inRows {rows : List Tree} (isRows : IsRows rows) (member : part ∈ rows) :
      (∃ token, part = .leaf token) ∨ IsSpec part := by
    induction isRows with
    | nil => simp at member
    | line isSpec _ _ induction =>
        rcases List.mem_cons.mp member with rfl | later
        · exact .inr isSpec
        · exact induction later
    | semicolon _ _ isSpec _ induction =>
        rcases List.mem_cons.mp member with rfl | later
        · exact .inl ⟨_, rfl⟩
        · rcases List.mem_cons.mp later with rfl | rest
          · exact .inr isSpec
          · exact induction rest
  cases isImported with
  | single isSpec => exact .inr (List.mem_singleton.mp listed ▸ isSpec)
  | empty =>
      rcases List.mem_cons.mp listed with rfl | last
      · exact .inl ⟨_, rfl⟩
      · exact .inl ⟨_, List.mem_singleton.mp last⟩
  | listed _ isSpec isRows isClosing =>
      rcases List.mem_cons.mp listed with rfl | inside
      · exact .inl ⟨_, rfl⟩
      · rcases List.mem_cons.mp inside with rfl | behind
        · exact .inr isSpec
        · rcases List.mem_append.mp behind with row | closing
          · exact inRows isRows row
          · cases isClosing with
            | bare => exact .inl ⟨_, List.mem_singleton.mp closing⟩
            | semicolon =>
                rcases List.mem_cons.mp closing with rfl | last
                · exact .inl ⟨_, rfl⟩
                · exact .inl ⟨_, List.mem_singleton.mp last⟩

theorem isSpec_of_mem_specsOf {body : List Tree} (isImported : IsImported body) {spec : Tree}
    (listed : spec ∈ specsOf body) : IsSpec spec := by
  obtain ⟨member, isA⟩ := List.mem_filter.mp listed
  rcases exists_leaf_or_isSpec_of_mem isImported member with ⟨token, rfl⟩ | isSpec
  · simp [Tree.isA, Tree.kind?] at isA
  · exact isSpec

theorem importSpecs_declarationTree {body : List Tree} (isImported : IsImported body)
    (opening : Token) : importSpecs (declarationTree opening body) = specsOf body := by
  have inside (parts : List Tree)
      (known : ∀ part ∈ parts, (∃ token, part = .leaf token) ∨ IsSpec part) :
      (Tree.subtreesOfAll parts).filter (Tree.isA .importSpec) = specsOf parts := by
    induction parts with
    | nil => rfl
    | cons part rest induction =>
        rw [Tree.subtreesOfAll, List.filter_append,
          induction fun other member => known other (List.mem_cons_of_mem part member)]
        rcases known part List.mem_cons_self with ⟨token, rfl⟩ | isSpec
        · rfl
        · rw [filter_subtrees_of_isSpec isSpec, specsOf, specsOf,
            List.filter_cons_of_pos (isA_importSpec_of_isSpec isSpec)]
          rfl
  exact inside body fun part member => exists_leaf_or_isSpec_of_mem isImported member

/-! ## Files alike -/

theorem importOf_plain {spec : Tree} (isSpec : IsSpec spec) :
    importOf spec.plain = importOf spec := by
  cases isSpec <;> rfl

theorem importsOf_plainAll {tokens : List Token} {items : List Tree}
    (result : items? tokens = some items) : importsOf (Tree.plainAll items) = importsOf items := by
  have filtered : (Tree.plainAll items).filter (Tree.isA .importDeclaration) =
      (items.filter (Tree.isA .importDeclaration)).map Tree.plain := by
    rw [Tree.plainAll_eq_map, List.filter_map]
    congr 2
    funext tree
    exact Tree.isA_plain .importDeclaration tree
  rw [importsOf, importsOf, filtered, List.flatMap_map]
  refine List.flatMap_congr fun declaration member => ?_
  obtain ⟨listed, isA⟩ := List.mem_filter.mp member
  obtain ⟨opening, body, _, isImported, rfl⟩ := isImported_of_mem_items result listed isA
  have specs : importSpecs (declarationTree opening body).plain =
      (importSpecs (declarationTree opening body)).map Tree.plain := by
    rw [importSpecs, importSpecs, Tree.inside, Tree.inside, Tree.subtrees_plain, List.filter_map]
    congr 2
    funext tree
    exact Tree.isA_plain .importSpec tree
  rw [specs, importSpecs_declarationTree isImported, List.map_map]
  refine List.map_congr_left fun spec inside => ?_
  exact importOf_plain (isSpec_of_mem_specsOf isImported inside)

theorem items?_plain (tokens : List Token) :
    items? (tokens.map Token.plain) = (items? tokens).map Tree.plainAll := by
  have read : parse .lines file (tokens.map Token.plain) =
      (parse .lines file tokens).map fun found =>
        (Tree.plainAll found.1, found.2.map Token.plain) := by
    rw [parse, parse, List.length_map, read_plain]
  rw [items?, items?, read]
  cases parse .lines file tokens with
  | none => rfl
  | some found =>
      obtain ⟨trees, rest⟩ := found
      cases rest <;> rfl

end SourceFile

end Go

end Scaffold
