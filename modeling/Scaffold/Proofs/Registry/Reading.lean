import Scaffold.Proofs.Go.Calls
import Scaffold.Proofs.Go.Comments
import Scaffold.Proofs.Go.Insertion
import Scaffold.Proofs.Go.UsedNames
import Scaffold.Proofs.Registry.References

/-!
# How a registry is read

The text of a registry is read line by line: comments, a package clause,
directives, one block of imports and the variable that holds the options.  Every
name in it is spelled by others, so whether it is a Go file comes down to
whether these spell identifiers.
-/

namespace Scaffold

namespace Go

open Token (plainLead)

/-! ## Names in a text -/

/-- A name, or a name behind that of its package and a dot. -/
inductive IsSelector : Text → Prop where
  | own {name : Text} (proper : IsIdentifier name) : IsSelector name
  | selected {package name : Text} (isPackage : IsIdentifier package)
      (proper : IsIdentifier name) : IsSelector (package ++ ['.'] ++ name)

/-- The token of a name. -/
def nameToken (breaks : Bool) (name : Text) : Token :=
  plainToken breaks (wordTerminal name) name

def commaToken : Token :=
  plainToken false (.operator .comma) [',']

variable {word rest : Text} {next : Char}

theorem scan?_identifier (proper : IsIdentifier word) (ends : continuesName next = false)
    (breaks : Bool) (rest : Text) :
    scan? breaks (word ++ next :: rest) =
      (scan? false (next :: rest)).map (nameToken breaks word :: ·) := by
  rw [scan?_of_lexeme (piece?_identifier proper ends) proper.ne_nil, List.drop_left]
  rfl

/-- A name before a comma, perhaps behind that of its package, is a reference. -/
theorem exists_scan?_selector (isSelector : IsSelector word) :
    ∃ tokens, IsReference tokens ∧ ∀ rest, scan? true (word ++ ',' :: rest) =
      (scan? false rest).map fun others => tokens ++ commaToken :: others := by
  have behind (rest : Text) : scan? false (',' :: rest) =
      (scan? false rest).map (commaToken :: ·) := by
    have found : piece? (',' :: rest) = some (.lexeme (.operator .comma) [',']) := rfl
    rw [scan?_of_lexeme found (List.cons_ne_nil _ _)]
    rfl
  have comma : continuesName ',' = false := by decide
  cases isSelector with
  | own proper =>
      refine ⟨[nameToken true word], .own proper.isName, fun rest => ?_⟩
      rw [scan?_identifier proper comma, behind, Option.map_map]
      rfl
  | @selected package name isPackage proper =>
      refine ⟨[nameToken true package, plainToken false (.operator .dot) ['.'],
        nameToken false name], .selected isPackage.isName rfl rfl proper.isName, fun rest => ?_⟩
      have line : package ++ ['.'] ++ name ++ ',' :: rest =
          package ++ '.' :: (name ++ ',' :: rest) := by simp
      have dot : scan? false (['.'] ++ (name ++ ',' :: rest)) =
          (scan? false (name ++ ',' :: rest)).map
            (plainToken false (.operator .dot) ['.'] :: ·) := by
        rw [scan?_of_lexeme (piece?_dot proper _) (List.cons_ne_nil _ _)]
        rfl
      rw [line, scan?_identifier isPackage (by decide), ← List.singleton_append, dot,
        scan?_identifier proper comma, behind, Option.map_map, Option.map_map, Option.map_map]
      rfl

theorem scan?_ofLines_of_isSkipped {lines : List Text} (skipped : ∀ line ∈ lines, IsSkipped line)
    {breaks : Bool} (opens : lines = [] → breaks = true) (rest : Text) :
    scan? breaks (Text.ofLines lines ++ rest) = scan? true rest := by
  induction lines generalizing breaks with
  | nil =>
      rw [opens rfl]
      rfl
  | cons line lines induction =>
      obtain ⟨first, later⟩ := List.forall_mem_cons.mp skipped
      have whole : Text.ofLines (line :: lines) ++ rest =
          line ++ '\n' :: (Text.ofLines lines ++ rest) := by
        simp [Text.ofLines]
      rw [whole, first, induction later fun _ => rfl]

theorem isSkipped_lineComment {text : Text} (begins : text.take 2 = ['/', '/'])
    (inLine : '\n' ∉ text) : IsSkipped text := by
  refine SourceFile.IsComment.isSkipped
    (.inr ⟨text.drop 2, ?_, fun inside => inLine (List.mem_of_mem_drop inside)⟩)
  exact (List.take_append_drop 2 text).symm.trans (by rw [begins]; rfl)

/-! ## Names that are read -/

theorem hasName_of_isIdentifier {spec : Import} (proper : IsIdentifier spec.name) :
    spec.HasName := by
  obtain ⟨starts, letters, -⟩ := isIdentifier_iff.mp proper
  have found := @piece?_word spec.name [] starts (List.all_eq_true.mp letters) (by simp)
  rw [List.append_nil] at found
  exact .inr (.inr ⟨proper.isName, found⟩)

namespace SourceFile

variable {source : Text} {file : SourceFile}

theorem isIdentifier_packageName (read : ofText? source = some file) {package : Text}
    (named : file.packageName? = some package) : IsIdentifier package := by
  obtain ⟨tokens, cut, parsed⟩ := exists_tokens_of_ofText? read
  have word : wordBehindPackage tokens = some package :=
    (packageName?_of_items? parsed file.source).symm.trans named
  rcases exists_clauseAt parsed with ⟨_, nothing⟩ | ⟨_, opening, name, behind, _, _, around⟩
  · simp [packageName?, packageClause?, topLevel, nothing] at named
  · rw [around.tokens_eq, wordBehindPackage_append around.free around.isWord] at word
    rw [← Option.some.inj word]
    exact isIdentifier_of_mem_tokens cut (by simp [around.tokens_eq]) around.isName

theorem hasName_of_mem_imports (read : ofText? source = some file) :
    ∀ spec ∈ file.imports, spec.HasName := by
  intro spec listed
  obtain ⟨tokens, cut, parsed⟩ := exists_tokens_of_ofText? read
  obtain ⟨declaration, member, inside⟩ := List.mem_flatMap.mp listed
  obtain ⟨tree, known, rfl⟩ := List.mem_map.mp inside
  obtain ⟨top, isA⟩ := List.mem_filter.mp member
  obtain ⟨opening, body, _, isImported, rfl⟩ := isImported_of_mem_items parsed top isA
  have subtree : tree ∈ Tree.subtreesOfAll file.items :=
    Tree.mem_subtreesOfAll.mpr ⟨_, top, (List.mem_filter.mp known).1⟩
  have own : ∀ token ∈ tree.tokens, token ∈ tokens := by
    rw [← tokensOfAll_of_items? parsed]
    exact fun token => @Tree.tokens_subset_of_mem_subtreesOfAll _ _ subtree token
  rw [importSpecs_declarationTree isImported] at known
  cases isSpec_of_mem_specsOf isImported known with
  | plain => exact .inl rfl
  | @named name path names string =>
      have inside : name ∈ tokens := own name (by simp [Tree.tokens, Tree.tokensOfAll])
      have same : (importOf (.node .importSpec [.node .importName [.leaf name],
          .node .importPath [.leaf path]])).name = name.text := by
        simp [importOf, Tree.parts, Tree.children, Tree.isA, Tree.kind?, Tree.text, Tree.tokens,
          Tree.tokensOfAll]
      rcases names with dot | isName
      · have spelled := mem_operators_of_mem_tokens cut inside dot
        have unique : ∀ entry ∈ operators, entry.2 = .dot → entry.1 = ['.'] := by decide
        exact .inr (.inl (same.trans (unique _ spelled rfl)))
      · exact hasName_of_isIdentifier (same ▸ isIdentifier_of_mem_tokens cut inside isName)

end SourceFile

end Go

namespace Registry

open Go

/-! ## The options -/

/-- The pieces of the line before the entries. -/
def openingPieces : List Piece :=
  [.lexeme (.keyword .varWord) ['v', 'a', 'r'], .trivia (.blank [' ']),
    .lexeme .identifier variableName, .trivia (.blank [' ']),
    .lexeme (.operator .assign) ['='], .trivia (.blank [' ']),
    .lexeme .identifier ['f', 'x'], .lexeme (.operator .dot) ['.'],
    .lexeme .identifier ['O', 'p', 't', 'i', 'o', 'n', 's'],
    .lexeme (.operator .openParenthesis) ['(']]

theorem cuts_opening (rest : Text) : Cuts (opening ++ rest) openingPieces rest := by
  refine .piece rfl (List.cons_ne_nil _ _) (.piece rfl (List.cons_ne_nil _ _)
    (.piece rfl (List.cons_ne_nil _ _) (.piece rfl (List.cons_ne_nil _ _)
    (.piece rfl (List.cons_ne_nil _ _) (.piece rfl (List.cons_ne_nil _ _)
    (.piece rfl (List.cons_ne_nil _ _) (.piece rfl (List.cons_ne_nil _ _)
    (.piece rfl (List.cons_ne_nil _ _) (.piece rfl (List.cons_ne_nil _ _) .done)))))))))

theorem exists_scan?_entries {entries : List Text} (all : ∀ entry ∈ entries, IsSelector entry) :
    ∃ arguments, IsArguments arguments ∧ ∀ rest,
      scan? true (Text.ofLines (entries.map row) ++ rest) =
        (scan? true rest).map (arguments ++ ·) := by
  induction entries with
  | nil => exact ⟨[], .nil, fun rest => by simp [Text.ofLines]⟩
  | cons entry entries induction =>
      obtain ⟨first, later⟩ := List.forall_mem_cons.mp all
      obtain ⟨reference, isReference, scanned⟩ := exists_scan?_selector first
      obtain ⟨arguments, isArguments, others⟩ := induction later
      refine ⟨reference ++ commaToken :: arguments, .cons isReference rfl isArguments,
        fun rest => ?_⟩
      have whole : Text.ofLines ((entry :: entries).map row) ++ rest =
          '\t' :: (entry ++ ',' :: '\n' :: (Text.ofLines (entries.map row) ++ rest)) := by
        simp [Text.ofLines, row]
      rw [whole, scan?_cons_of_isSpace (by decide), Bool.true_or, scanned, scan?_newline, others,
        Option.map_map]
      congr 1
      funext tokens
      simp

/-- The tokens of the call that collects the options. -/
def optionsCall (arguments : List Token) : List Token :=
  nameToken false ['f', 'x'] :: plainToken false (.operator .dot) ['.'] ::
    nameToken false ['O', 'p', 't', 'i', 'o', 'n', 's'] :: openingToken ::
      (arguments ++ [closingToken true])

theorem isCall_optionsCall {arguments : List Token} (isArguments : IsArguments arguments) :
    IsCall (optionsCall arguments) :=
  .call (.inl rfl) rfl rfl (.inl rfl) rfl rfl isArguments rfl

theorem exists_scan?_rows {entries : List Text} (all : ∀ entry ∈ entries, IsSelector entry) :
    ∃ tokens, IsCallDeclaration tokens ∧
      scan? true (Text.ofLines (rows entries)) = some tokens := by
  obtain ⟨arguments, isArguments, scanned⟩ := exists_scan?_entries all
  have isDeclaration : IsCallDeclaration (plainToken true (.keyword .varWord) ['v', 'a', 'r'] ::
      nameToken false variableName :: plainToken false (.operator .assign) ['='] ::
        (optionsCall arguments ++ [plainToken true .finish []])) :=
    .declared rfl rfl (.inl rfl) rfl (isCall_optionsCall isArguments) rfl rfl
  refine ⟨_, isDeclaration, ?_⟩
  have whole : Text.ofLines (rows entries) =
      opening ++ '\n' :: (Text.ofLines (entries.map row) ++ [')', '\n']) := by
    simp [Text.ofLines, rows, closing]
  have closed : scan? true [')', '\n'] = some [closingToken true, plainToken true .finish []] := rfl
  rw [whole, scan?_of_cuts (cuts_opening _), scan?_newline, scanned, closed, Option.map_some,
    Option.map_some]
  simp only [optionsCall, List.append_assoc, List.cons_append, List.nil_append]
  rfl

/-! ## The text -/

def packageToken : Token :=
  plainToken true (.keyword .packageWord) ['p', 'a', 'c', 'k', 'a', 'g', 'e']

/-- The lines of the header. -/
def headerLines : List Text :=
  ["// DO NOT MODIFY", "// This file will be automatically regenerated based on the API."]

theorem header_eq : header = Text.ofLines headerLines := by decide +kernel

theorem isSkipped_headerLines : ∀ line ∈ headerLines, IsSkipped line := by
  have comments : ∀ line ∈ headerLines, line.take 2 = ['/', '/'] ∧ '\n' ∉ line := by
    decide +kernel
  exact fun line member => isSkipped_lineComment (comments line member).1 (comments line member).2

theorem scan?_packageLine {package : Text} (proper : IsIdentifier package) (rest : Text) :
    scan? true (("package " : Text) ++ package ++ '\n' :: rest) =
      (scan? true rest).map fun tokens => packageToken :: nameToken false package :: tokens := by
  have found (others : Text) : piece? (['p', 'a', 'c', 'k', 'a', 'g', 'e', ' '] ++ others) =
      some (.lexeme (.keyword .packageWord) ['p', 'a', 'c', 'k', 'a', 'g', 'e']) := rfl
  have whole : ("package " : Text) ++ package ++ '\n' :: rest =
      ['p', 'a', 'c', 'k', 'a', 'g', 'e', ' '] ++ (package ++ '\n' :: rest) := by
    rw [List.append_assoc]
    rfl
  have behind : (['p', 'a', 'c', 'k', 'a', 'g', 'e', ' '] ++ (package ++ '\n' :: rest)).drop
      ['p', 'a', 'c', 'k', 'a', 'g', 'e'].length = ' ' :: (package ++ '\n' :: rest) := rfl
  rw [whole, scan?_of_lexeme (found _) (List.cons_ne_nil _ _), behind,
    scan?_cons_of_isSpace (by decide), scan?_identifier proper (by decide), scan?_newline,
    Option.map_map]
  rfl

/-- The directives end on their lines. -/
def AreInLine (directives : List Directive) : Prop :=
  ∀ directive ∈ directives, '\n' ∉ directive.render

theorem isSkipped_directiveLines {directives : List Directive} (inLine : AreInLine directives) :
    ∀ line ∈ directiveLines directives, IsSkipped line := by
  intro line member
  unfold directiveLines at member
  split at member
  · simp at member
  · rcases List.mem_append.mp member with listed | last
    · obtain ⟨directive, known, rfl⟩ := List.mem_map.mp listed
      exact isSkipped_lineComment rfl (inLine directive known)
    · rw [List.mem_singleton.mp last]
      exact isSkipped_nil

/-- The text of a registry with its parts. -/
def textOf (package : Text) (directives : List Directive) (block : Text) (entries : List Text) :
    Text :=
  header ++ Text.ofLines (["package " ++ package, []] ++ directiveLines directives ++ [block, []] ++
    rows entries)

variable {package block : Text} {directives : List Directive} {entries : List Text}
  {imports : List Import} {body : List Tree}

theorem scan?_textOf (proper : IsIdentifier package) (inLine : AreInLine directives)
    (isText : IsDeclarationText block imports body) :
    scan? false (markless (textOf package directives block entries)) =
      (scan? true (Text.ofLines (rows entries))).map fun tokens =>
        packageToken :: nameToken false package :: importToken ::
          (Tree.tokensOfAll body ++ tokens) := by
  have whole : Text.ofLines (["package " ++ package, []] ++ directiveLines directives ++
      [block, []] ++ rows entries) =
      ("package " : Text) ++ package ++ '\n' :: '\n' :: (Text.ofLines (directiveLines directives) ++
        (block ++ '\n' :: '\n' :: Text.ofLines (rows entries))) := by
    simp [Text.ofLines]
  have marked : markless header = header := by decide +kernel
  rw [textOf, markless_append (by decide +kernel), marked, header_eq,
    scan?_ofLines_of_isSkipped isSkipped_headerLines (by simp [headerLines]), whole,
    scan?_packageLine proper, scan?_newline,
    scan?_ofLines_of_isSkipped (isSkipped_directiveLines inLine) fun _ => rfl, isText.scanned,
    scan?_newline, scan?_newline, Option.map_map]
  rfl

/-- The text is read as a file of a package that makes some imports. -/
def IsReadAs (text package : Text) (imports : List Import) : Prop :=
  ∃ file, SourceFile.ofText? text = some file ∧ file.packageName? = some package ∧
    file.imports.Perm imports

theorem isReadAs_textOf (proper : IsIdentifier package) (inLine : AreInLine directives)
    (isText : IsDeclarationText block imports body) (all : ∀ entry ∈ entries, IsSelector entry) :
    IsReadAs (textOf package directives block entries) package imports := by
  obtain ⟨tokens, isDeclaration, scanned⟩ := exists_scan?_rows all
  obtain ⟨items, read, follows⟩ := SourceFile.exists_items?_of_isCallDeclaration isDeclaration
  have none : SourceFile.importsOf items = [] := by
    have nothing : items.filter (Tree.isA .importDeclaration) = [] := by
      apply SourceFile.filter_isA_eq_nil read (List.Subset.refl _) rfl
      intro token member isWord
      have inCall := isDeclaration.areInCall token
        (SourceFile.tokensOfAll_of_items? read ▸ member)
      rw [isWord] at inCall
      exact Bool.false_ne_true inCall
    rw [SourceFile.importsOf, nothing]
    rfl
  have whole := @scan?_textOf _ _ directives entries _ _ proper inLine isText
  rw [scanned, Option.map_some] at whole
  have imported : SourceFile.after? (importToken :: (Tree.tokensOfAll body ++ tokens)) =
      some (declarationTree importToken body :: items) := by
    have onLine : importToken.onNewLine = true := rfl
    rw [SourceFile.after?, if_pos onLine, SourceFile.items?_declarationTree rfl isText.isImported,
      follows, Option.map_some]
  have parsed : SourceFile.items? (packageToken :: nameToken false package :: importToken ::
      (Tree.tokensOfAll body ++ tokens)) =
      some ([clauseTree packageToken (nameToken false package)] ++
        declarationTree importToken body :: items) := by
    rw [SourceFile.items?_clauseTree rfl proper.isName, imported]
    rfl
  refine (@SourceFile.exists_ofText?_iff _
    fun name found => name = some package ∧ found.Perm imports).mpr ⟨_, _, whole, parsed, rfl, ?_⟩
  rw [SourceFile.importsOf_append_declarationTree isText, none, List.append_nil]
  exact List.Perm.refl _

end Registry

end Scaffold
