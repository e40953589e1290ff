import Scaffold.Proofs.Go.Declarations
import Scaffold.Proofs.Go.ImportBlock
import Scaffold.Proofs.Go.Scanning

/-!
# How an import block is read

The rows of an import block are scanned one after the other: each holds an
import, or nothing but a comment.  A block with an import in it is read as one
declaration that makes these imports in their order.
-/

namespace Scaffold

open Go (Piece Terminal Tree Token piece? scan? wordTerminal plainToken IsSpec IsRows)

namespace Import

/-- The path between double quotes. -/
def quotedPath (spec : Import) : Text :=
  '"' :: (spec.path ++ ['"'])

/-- The name of the import, if there is one, can stand before the path. -/
def HasName (spec : Import) : Prop :=
  spec.name = [] ∨ spec.name = ['.'] ∨
    ((wordTerminal spec.name).IsName ∧
      piece? spec.name = some (.lexeme (wordTerminal spec.name) spec.name))

instance (spec : Import) : Decidable spec.HasName :=
  inferInstanceAs (Decidable (_ ∨ _ ∨ (_ ∧ _)))

/-- The import can be written down: its path is a string between double quotes
as it is, and its name is a name. -/
def IsSpellable (spec : Import) : Prop :=
  spec.HasName ∧ piece? spec.quotedPath = some (.lexeme .interpreted spec.quotedPath)

instance (spec : Import) : Decidable spec.IsSpellable :=
  inferInstanceAs (Decidable (_ ∧ _))

end Import

namespace Go

/-! ## Rows -/

/-- Before the end of a line the text is skipped. -/
def IsSkipped (text : Text) : Prop :=
  ∀ breaks more, scan? breaks (text ++ '\n' :: more) = scan? true more

theorem isSkipped_nil : IsSkipped [] := scan?_newline

theorem isSkipped_cons {character : Char} (blank : Text.isSpace character = true) {text : Text}
    (skipped : IsSkipped text) : IsSkipped (character :: text) := by
  intro breaks more
  rw [List.cons_append, scan?_cons_of_isSpace blank, skipped]

theorem piece?_quotedPath {spec : Import}
    (quoted : piece? spec.quotedPath = some (.lexeme .interpreted spec.quotedPath))
    (rest : Text) :
    piece? (spec.quotedPath ++ rest) = some (.lexeme .interpreted spec.quotedPath) := by
  have other (text : Text) : piece? ('"' :: text) = pieceAt? '"' text :=
    piece?_cons (by simp) (by simp)
  rw [Import.quotedPath, other] at quoted
  obtain ⟨taken, behind, whole, text, settled⟩ := settlesAt_quote _ _ quoted
  have same : spec.path ++ ['"'] = taken := (List.cons.inj text).2
  rw [Import.quotedPath, List.cons_append, other, same, settled, same]

theorem piece?_name {name : Text} (isName : (wordTerminal name).IsName)
    (found : piece? name = some (.lexeme (wordTerminal name) name)) (rest : Text) :
    piece? (name ++ ' ' :: rest) = some (.lexeme (wordTerminal name) name) := by
  have all := continuesName_of_piece? isName found
  obtain ⟨character, others, rfl, solid, starts, _, _⟩ := exists_word_of_piece? isName found
  have noSlash : character ≠ '/' := by
    rintro rfl
    exact absurd starts (by decide)
  have word : (character :: (others ++ ' ' :: rest)).takeWhile continuesName =
      character :: others := by
    rw [← List.cons_append, List.takeWhile_append_of_pos all,
      List.takeWhile_cons_of_neg (by decide), List.append_nil]
  rw [List.cons_append, piece?_cons (by simp [noSlash]) (by simp [noSlash]), pieceAt?]
  simp only [solid, starts, word, Bool.false_eq_true, if_false, if_true]

theorem scan?_quotedPath {spec : Import}
    (quoted : piece? spec.quotedPath = some (.lexeme .interpreted spec.quotedPath))
    (breaks : Bool) (rest : Text) :
    scan? breaks (spec.quotedPath ++ rest) =
      (scan? false rest).map (plainToken breaks .interpreted spec.quotedPath :: ·) := by
  rw [scan?_of_lexeme (piece?_quotedPath quoted rest) (by simp [Import.quotedPath]),
    List.drop_left]

theorem exists_scan?_name {spec : Import} (named : spec.name ≠ []) (hasName : spec.HasName) :
    ∃ terminal : Terminal, terminal.NamesImport ∧ ∀ breaks rest,
      scan? breaks (spec.name ++ ' ' :: rest) =
        (scan? false rest).map (plainToken breaks terminal spec.name :: ·) := by
  have scanned {terminal : Terminal} (found : ∀ rest,
      piece? (spec.name ++ ' ' :: rest) = some (.lexeme terminal spec.name)) (breaks : Bool)
      (rest : Text) : scan? breaks (spec.name ++ ' ' :: rest) =
        (scan? false rest).map (plainToken breaks terminal spec.name :: ·) := by
    rw [scan?_of_lexeme (found rest) named, List.drop_left, scan?_cons_of_isSpace (by decide)]
    rfl
  rcases hasName with nothing | dot | ⟨isName, found⟩
  · exact absurd nothing named
  · refine ⟨.operator .dot, .inl rfl, scanned fun rest => ?_⟩
    rw [dot]
    rfl
  · exact ⟨_, .inr isName, scanned (piece?_name isName found)⟩

/-- The row of an import is read as the import. -/
theorem exists_tree_of_row {spec : Import} (spellable : spec.IsSpellable) :
    ∃ tree, IsSpec tree ∧ SourceFile.importOf tree = spec ∧
      tree.tokens.head?.any Token.onNewLine = true ∧
      ∀ behind, IsSkipped behind → ∀ more,
        scan? true (ImportBlock.row spec behind ++ '\n' :: more) =
          (scan? true more).map (tree.tokens ++ ·) := by
  obtain ⟨hasName, quoted⟩ := spellable
  have inside : ((spec.quotedPath).drop 1).dropLast = spec.path := by
    simp [Import.quotedPath]
  have tab (text : Text) : scan? true ('\t' :: text) = scan? true text := by
    rw [scan?_cons_of_isSpace (by decide)]
    rfl
  by_cases named : spec.name = []
  · refine ⟨.node .importSpec [.node .importPath [.leaf
      (plainToken true .interpreted spec.quotedPath)]], .plain (.inl rfl), ?_, ?_, ?_⟩
    · cases spec
      simp_all [SourceFile.importOf, Tree.parts, Tree.children, Tree.isA, Tree.kind?, Tree.text,
        Tree.tokens, Tree.tokensOfAll, plainToken]
    · exact onNewLine_plainToken true _ _
    · intro behind skipped more
      have row : ImportBlock.row spec behind ++ '\n' :: more =
          '\t' :: (spec.quotedPath ++ (behind ++ '\n' :: more)) := by
        simp [ImportBlock.row, Import.render, named, Import.quotedPath]
      rw [row, tab, scan?_quotedPath quoted, skipped]
      rfl
  · obtain ⟨terminal, names, scanned⟩ := exists_scan?_name named hasName
    refine ⟨.node .importSpec [.node .importName [.leaf (plainToken true terminal spec.name)],
      .node .importPath [.leaf (plainToken false .interpreted spec.quotedPath)]],
      .named names (.inl rfl), ?_, ?_, ?_⟩
    · cases spec
      simp_all [SourceFile.importOf, Tree.parts, Tree.children, Tree.isA, Tree.kind?, Tree.text,
        Tree.tokens, Tree.tokensOfAll, plainToken]
    · exact onNewLine_plainToken true _ _
    · intro behind skipped more
      have row : ImportBlock.row spec behind ++ '\n' :: more =
          '\t' :: (spec.name ++ ' ' :: (spec.quotedPath ++ (behind ++ '\n' :: more))) := by
        simp [ImportBlock.row, Import.render, named, Import.quotedPath]
      rw [row, tab, scanned, scan?_quotedPath quoted, skipped, Option.map_map]
      rfl

/-- Some rows show imports in their order, each in a row of its own. -/
inductive Shows : List Text → List Import → Prop where
  | nil : Shows [] []
  | skipped {row : Text} {rest : List Text} {specs : List Import} (isSkipped : IsSkipped row)
      (later : Shows rest specs) : Shows (row :: rest) specs
  | spec {spec : Import} {behind : Text} {rest : List Text} {specs : List Import}
      (spellable : spec.IsSpellable) (isSkipped : IsSkipped behind) (later : Shows rest specs) :
      Shows (ImportBlock.row spec behind :: rest) (spec :: specs)

namespace Shows

variable {rows others : List Text} {specs more : List Import}

theorem append (first : Shows rows specs) (second : Shows others more) :
    Shows (rows ++ others) (specs ++ more) := by
  induction first with
  | nil => exact second
  | skipped isSkipped _ induction => exact .skipped isSkipped induction
  | spec spellable isSkipped _ induction => exact .spec spellable isSkipped induction

theorem of_skipped (all : ∀ row ∈ rows, IsSkipped row) : Shows rows [] := by
  induction rows with
  | nil => exact .nil
  | cons row rest induction =>
      exact .skipped (all row List.mem_cons_self)
        (induction fun other member => all other (List.mem_cons_of_mem row member))

theorem rows_ne_nil (shows : Shows rows specs) (something : specs ≠ []) : rows ≠ [] := by
  rintro rfl
  cases shows
  exact something rfl

/-- The rows are read as the imports that they show. -/
theorem exists_trees (shows : Shows rows specs) :
    ∃ trees, (∀ tree ∈ trees, IsSpec tree) ∧ IsRows trees ∧
      trees.map SourceFile.importOf = specs ∧
      ∀ rest, scan? true (Text.ofLines rows ++ rest) =
        (scan? true rest).map (Tree.tokensOfAll trees ++ ·) := by
  induction shows with
  | nil => exact ⟨[], by simp, .nil, rfl, fun rest => by simp [Text.ofLines, Tree.tokensOfAll]⟩
  | @skipped row rows specs isSkipped _ induction =>
      obtain ⟨trees, all, isRows, imports, scanned⟩ := induction
      refine ⟨trees, all, isRows, imports, fun rest => ?_⟩
      rw [Text.ofLines, List.flatMap_cons, List.append_assoc, List.append_assoc,
        List.singleton_append, isSkipped]
      exact scanned rest
  | @spec spec behind rows specs spellable isSkipped _ induction =>
      obtain ⟨trees, all, isRows, imports, scanned⟩ := induction
      obtain ⟨tree, isSpec, same, breaks, row⟩ := exists_tree_of_row spellable
      refine ⟨tree :: trees, List.forall_mem_cons.mpr ⟨isSpec, all⟩, .line isSpec breaks isRows,
        by rw [List.map_cons, same, imports], fun rest => ?_⟩
      rw [Text.ofLines, List.flatMap_cons, List.append_assoc, List.append_assoc,
        List.singleton_append, row behind isSkipped]
      refine (congrArg (Option.map _) (scanned rest)).trans ?_
      rw [Option.map_map]
      congr 1
      funext tokens
      simp [Tree.tokensOfAll]

end Shows

/-! ## The block -/

theorem join_append_newline {rows : List Text} (something : rows ≠ []) :
    Text.join ['\n'] rows ++ ['\n'] = Text.ofLines rows := by
  induction rows with
  | nil => exact absurd rfl something
  | cons row rest induction =>
      cases rest with
      | nil => simp [Text.join, Text.ofLines]
      | cons next others =>
          rw [Text.join, List.append_assoc, induction (List.cons_ne_nil next others)]
          simp [Text.ofLines]

/-- The word that opens an import declaration. -/
def importToken : Token :=
  plainToken true (.keyword .importWord) ['i', 'm', 'p', 'o', 'r', 't']

def openingToken : Token :=
  plainToken false (.operator .openParenthesis) ['(']

def closingToken (breaks : Bool) : Token :=
  plainToken breaks (.operator .closeParenthesis) [')']

theorem scan?_opening (rest : Text) :
    scan? true (("import (" : Text) ++ rest) =
      (scan? false rest).map fun tokens => importToken :: openingToken :: tokens := by
  have word : piece? (['i', 'm', 'p', 'o', 'r', 't', ' ', '('] ++ rest) =
      some (.lexeme (.keyword .importWord) ['i', 'm', 'p', 'o', 'r', 't']) := rfl
  have parenthesis : piece? ('(' :: rest) =
      some (.lexeme (.operator .openParenthesis) ['(']) := rfl
  have text : ("import (" : Text) = ['i', 'm', 'p', 'o', 'r', 't', ' ', '('] := rfl
  have behind : (['i', 'm', 'p', 'o', 'r', 't', ' ', '('] ++ rest).drop
      ['i', 'm', 'p', 'o', 'r', 't'].length = ' ' :: '(' :: rest := rfl
  rw [text, scan?_of_lexeme word (by simp), behind, scan?_cons_of_isSpace (by decide),
    scan?_of_lexeme parenthesis (by simp), Option.map_map]
  rfl

theorem scan?_closing (breaks : Bool) (rest : Text) :
    scan? breaks (')' :: rest) = (scan? false rest).map (closingToken breaks :: ·) := by
  have parenthesis : piece? (')' :: rest) =
      some (.lexeme (.operator .closeParenthesis) [')']) := rfl
  rw [scan?_of_lexeme parenthesis (by simp)]
  rfl

/-- A text is read as one import declaration, whatever follows it. -/
structure IsDeclarationText (text : Text) (imports : List Import) (body : List Tree) : Prop where
  isImported : IsImported body
  imports_eq : (SourceFile.specsOf body).map SourceFile.importOf = imports
  scanned : ∀ rest, scan? true (text ++ rest) =
    (scan? false rest).map fun tokens => importToken :: (Tree.tokensOfAll body ++ tokens)

/-- A section without imports. -/
def emptySection : Text :=
  "import ()"

theorem isDeclarationText_emptySection :
    IsDeclarationText emptySection [] [.leaf openingToken, .leaf (closingToken false)] where
  isImported := .empty rfl rfl
  imports_eq := rfl
  scanned rest := by
    have text : emptySection ++ rest = ("import (" : Text) ++ ')' :: rest := rfl
    rw [text, scan?_opening, scan?_closing, Option.map_map]
    rfl

/-- A block whose rows show some imports makes these. -/
theorem exists_isDeclarationText {rows : List Text} {specs : List Import}
    (shows : Shows rows specs) (something : specs ≠ []) :
    ∃ body, IsDeclarationText ("import (\n" ++ Text.join ['\n'] rows ++ "\n)") specs body := by
  obtain ⟨trees, all, isRows, imports, scanned⟩ := shows.exists_trees
  cases trees with
  | nil => exact absurd imports.symm something
  | cons tree others =>
      have first : IsSpec tree := all tree List.mem_cons_self
      have later : IsRows others := by
        cases isRows with
        | line _ _ later => exact later
        | semicolon => cases first
      have specs : (tree :: others).filter (Tree.isA .importSpec) = tree :: others :=
        List.filter_eq_self.mpr fun spec member =>
          SourceFile.isA_importSpec_of_isSpec (all spec member)
      refine ⟨.leaf openingToken :: tree :: (others ++ [.leaf (closingToken true)]),
        .listed rfl first later (.bare rfl), ?_, fun rest => ?_⟩
      · rw [SourceFile.specsOf, ← List.cons_append, List.filter_cons_of_neg (by decide),
          List.filter_append, specs, ← imports]
        simp [Tree.isA, Tree.kind?]
      · have text : ("import (\n" ++ Text.join ['\n'] rows ++ "\n)" : Text) ++ rest =
            ("import (" : Text) ++ '\n' :: (Text.ofLines rows ++ ')' :: rest) := by
          rw [← join_append_newline (shows.rows_ne_nil something)]
          have opening : ("import (\n" : Text) = ("import (" : Text) ++ ['\n'] := rfl
          have closing : ("\n)" : Text) = ['\n', ')'] := rfl
          rw [opening, closing]
          simp
        rw [text, scan?_opening, scan?_newline, scanned, scan?_closing, Option.map_map,
          Option.map_map]
        congr 1
        funext tokens
        simp [Tree.tokensOfAll, Tree.tokens, Tree.tokensOfAll_append]

/-! ## Rendered blocks -/

/-- A line can be written down and read back: its import is spelled as it is, and
its comment goes no further than the line. -/
structure IsClean (line : ImportLine) : Prop where
  spellable : line.spec.IsSpellable
  isSkipped : IsSkipped line.comment

theorem shows_group {group : List ImportLine} (all : ∀ line ∈ group, IsClean line) :
    Shows (group.map ImportLine.render) (group.map ImportLine.spec) := by
  induction group with
  | nil => exact .nil
  | cons line rest induction =>
      obtain ⟨first, later⟩ := List.forall_mem_cons.mp all
      refine .spec first.spellable ?_ (induction later)
      split
      · exact isSkipped_nil
      · exact isSkipped_cons (by decide) first.isSkipped

theorem shows_groupLines {groups : List (List ImportLine)}
    (all : ∀ group ∈ groups, ∀ line ∈ group, IsClean line) :
    Shows (ImportBlock.groupLines groups) (groups.flatten.map ImportLine.spec) := by
  induction groups with
  | nil => exact .nil
  | cons group rest induction =>
      obtain ⟨first, later⟩ := List.forall_mem_cons.mp all
      cases rest with
      | nil => simpa [ImportBlock.groupLines] using shows_group first
      | cons next others =>
          rw [ImportBlock.groupLines, List.flatten_cons, List.map_append]
          exact (shows_group first).append (.skipped isSkipped_nil (induction later))

/-- A rendered block is read as one declaration of the imports of its lines, each
once. -/
theorem exists_isDeclarationText_render (module : Text) {comments : List Text}
    {lines : List ImportLine} (something : lines ≠ [])
    (skipped : ∀ comment ∈ comments, IsSkipped comment) (clean : ∀ line ∈ lines, IsClean line) :
    ∃ imports body, IsDeclarationText (ImportBlock.render module comments lines) imports body ∧
      imports.Nodup ∧ ∀ spec, spec ∈ imports ↔ spec ∈ lines.map ImportLine.spec := by
  have perm := ImportBlock.flatten_groups_perm module (ImportBlock.unique lines)
  have specs := perm.map ImportLine.spec
  have kept : ∀ group ∈ ImportBlock.groups module (ImportBlock.unique lines),
      ∀ line ∈ group, IsClean line := by
    intro group listed line member
    exact ImportBlock.forall_mem_unique clean line
      (ImportBlock.mem_groups.mp ⟨group, listed, member⟩)
  have above : Shows (comments.map (['\t'] ++ ·)) [] := by
    apply Shows.of_skipped
    intro row member
    obtain ⟨comment, known, rfl⟩ := List.mem_map.mp member
    exact isSkipped_cons (by decide) (skipped comment known)
  have mem (spec : Import) :
      spec ∈ (ImportBlock.groups module (ImportBlock.unique lines)).flatten.map ImportLine.spec ↔
        spec ∈ lines.map ImportLine.spec :=
    specs.mem_iff.trans ImportBlock.mem_map_spec_unique
  obtain ⟨line, others, rfl⟩ := List.exists_cons_of_ne_nil something
  have inhabited := List.ne_nil_of_mem ((mem line.spec).mpr List.mem_cons_self)
  obtain ⟨body, isText⟩ := exists_isDeclarationText (above.append (shows_groupLines kept)) inhabited
  exact ⟨_, body, isText, specs.nodup_iff.mpr (ImportBlock.nodup_map_spec_unique _), mem⟩

end Go

end Scaffold
