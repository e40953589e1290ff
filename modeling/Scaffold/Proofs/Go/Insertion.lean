import Scaffold.Proofs.Go.BlockReading
import Scaffold.Proofs.Go.Layout
import Scaffold.Proofs.Go.Positions

/-!
# A declaration behind the line of the package clause

An import declaration can be put behind the line of the package clause unless
something goes on behind that line.  The file then is what stood around it, with
the imports of the declaration in between, whatever these are.
-/

namespace Scaffold

namespace Go

theorem exists_cuts_of_scan? {breaks : Bool} {text : Text} {tokens : List Token}
    (scanned : scan? breaks text = some tokens) :
    ∃ pieces, Cuts text pieces [] ∧ tokens = tokensOf breaks pieces := by
  obtain ⟨pieces, found, rfl⟩ := Option.map_eq_some_iff.mp scanned
  exact ⟨pieces, cuts_of_pieces? _ found, rfl⟩

namespace SourceFile

theorem wordBehindPackage_map_plain (tokens : List Token) :
    wordBehindPackage (tokens.map Token.plain) = wordBehindPackage tokens := by
  rw [wordBehindPackage, wordBehindPackage, List.dropWhile_map]
  have same : ((fun token : Token => token.terminal != .keyword .packageWord) ∘ Token.plain) =
      fun token => token.terminal != .keyword .packageWord := rfl
  rw [same]
  generalize tokens.dropWhile (fun token => token.terminal != .keyword .packageWord) = left
  cases left with
  | nil => rfl
  | cons first rest =>
      cases rest with
      | nil => rfl
      | cons second others => rfl

/-- What a text is read as goes by its tokens without their places. -/
theorem exists_ofText?_iff {text : Text} {property : Option Text → List Import → Prop} :
    (∃ file, ofText? text = some file ∧ property file.packageName? file.imports) ↔
      ∃ tokens items, scan? false (markless text) = some tokens ∧ items? tokens = some items ∧
        property (wordBehindPackage tokens) (importsOf items) := by
  rw [← map_plain_tokens?]
  constructor
  · rintro ⟨file, read, holds⟩
    obtain ⟨tokens, cut, parsed⟩ := exists_tokens_of_ofText? read
    refine ⟨tokens.map Token.plain, Tree.plainAll file.items, by rw [cut, Option.map_some], ?_, ?_⟩
    · rw [items?_plain, parsed, Option.map_some]
    · rwa [wordBehindPackage_map_plain, importsOf_plainAll parsed,
        ← packageName?_of_items? parsed file.source]
  · rintro ⟨tokens, items, scanned, parsed, holds⟩
    obtain ⟨tokens, cut, rfl⟩ := Option.map_eq_some_iff.mp scanned
    rw [items?_plain] at parsed
    obtain ⟨items, read, rfl⟩ := Option.map_eq_some_iff.mp parsed
    refine ⟨⟨text, items⟩, ?_, ?_⟩
    · rw [ofText?_eq, cut, Option.bind_some, read, Option.map_some]
    · rwa [wordBehindPackage_map_plain, importsOf_plainAll read,
        ← packageName?_of_items? read text] at holds

/-! ## The line of the package clause -/

/-- What follows the package clause on its line. -/
def clauseRest (file : SourceFile) : Text :=
  match file.packageClause? with
  | none => []
  | some clause => (file.source.drop clause.stop).takeWhile (· ≠ '\n')

/-- The tokens of a file around the name of its package. -/
theorem exists_tokens_at_clause {file : SourceFile} {clause : Tree}
    (read : ofText? file.source = some file) (opened : file.packageClause? = some clause) :
    ∃ front opening name behind before later,
      tokens? file.source = some (front ++ opening :: name :: behind) ∧
        clause = clauseTree opening name ∧
        ClauseAt (front ++ opening :: name :: behind) file.items front opening name behind before
          later := by
  obtain ⟨tokens, cut, parsed⟩ := exists_tokens_of_ofText? read
  rcases exists_clauseAt parsed with
    ⟨_, nothing⟩ | ⟨front, opening, name, behind, before, later, around⟩
  · simp [packageClause?, topLevel, nothing] at opened
  · have whole := around.tokens_eq
    subst whole
    rw [around.packageClause?_eq] at opened
    exact ⟨front, opening, name, behind, before, later, cut, (Option.some.inj opened).symm, around⟩

theorem after?_ne_nil {tokens : List Token} {items : List Tree}
    (followed : after? tokens = some items) : tokens ≠ [] := by
  rintro rfl
  simp [after?] at followed

/-- A source is scanned up to the end of a line if it is cut there, whatever stands on
the lines behind. -/
theorem scan?_head {source head rest tail : Text} {front behind : List Token} {name : Token}
    {pieces : List Piece} (cut : tokens? source = some (front ++ name :: behind))
    (isName : name.terminal.IsName) (more : behind ≠ [])
    (line : LineCut source name.stop head rest)
    (inLine : Cuts ((source.drop name.stop).takeWhile (· ≠ '\n')) pieces [])
    (opens : rest = [] → ∃ others, tail = '\n' :: others) :
    scan? false (markless (head ++ tail)) =
      (scan? true tail).map
        (((front ++ [name]).map Token.plain ++ plainTokens false pieces) ++ ·) := by
  obtain ⟨whole, text, ending, same, clean, ends⟩ := line
  have unfinished : name.terminal ≠ .finish := by
    intro finish
    rw [finish] at isName
    exact absurd isName (by decide)
  obtain ⟨before, cuts, plain, unbroken, _⟩ := exists_cuts_at_token cut unfinished
  have something : source.take name.stop ≠ [] := by
    rw [take_stop_of_tokens? cut]
    have named := (place_of_tokens? cut).2 more
    simp [Token.fullText, named]
  have parts : head ++ rest = source.take name.stop ++ (text ++ ending ++ rest) := by
    rw [same]
    simp only [List.append_assoc]
  have left : source.drop name.stop = text ++ ending ++ rest :=
    List.append_cancel_left
      ((List.take_append_drop name.stop source).trans (whole.symm.trans parts))
  have line : (source.drop name.stop).takeWhile (· ≠ '\n') = text := by
    have all : ∀ character ∈ text, (decide (character ≠ '\n')) = true := by
      simpa using fun character member => ne_of_mem_of_not_mem member clean
    rw [left, List.append_assoc, List.takeWhile_append_of_pos all]
    rcases ends with rfl | ⟨rfl, rfl⟩ <;> simp
  rw [line] at inLine
  rw [← plain]
  rcases ends with rfl | ⟨rfl, rfl⟩
  · have front : source.take name.stop ++ text ≠ [] := by simp [something]
    have whole : source = (source.take name.stop ++ text) ++ '\n' :: rest := by
      refine whole.symm.trans (parts.trans ?_)
      simp
    have here : markless source = markless (source.take name.stop ++ text) ++ '\n' :: rest :=
      (congrArg markless whole).trans (markless_append front _)
    have first := cuts.of_append_newline _ text here (by rw [left]; simp)
    have tokens : head ++ tail = (source.take name.stop ++ text) ++ '\n' :: tail := by
      rw [same]
      simp
    rw [tokens, markless_append front, scan?_append_newline first, unbroken,
      scan?_append_newline_of_cuts_nil inLine, Option.map_map]
    congr 1
    funext others
    simp
  · obtain ⟨others, rfl⟩ := opens rfl
    rw [List.append_nil, List.append_nil] at left
    rw [List.append_nil] at whole
    have front : source ≠ [] := by
      rintro rfl
      simp at something
    rw [whole, markless_append front, scan?_append_newline cuts, unbroken, left,
      scan?_append_newline_of_cuts_nil inLine, Option.map_map, scan?_newline]
    congr 1
    funext others
    simp

theorem clauseName_clauseTree (opening name : Token) :
    clauseName (clauseTree opening name) = name.text := by
  simp [clauseName, clauseTree, Tree.parts, Tree.children, Tree.isA, Tree.kind?, Tree.text,
    Tree.tokens, Tree.tokensOfAll]

/-- Some tokens without their places stand for the beginning of a file up to the end of
the line with its package clause. -/
structure IsHead (file : SourceFile) (head rest : Text) (tokens : List Token) : Prop where
  named : ∀ behind, wordBehindPackage (tokens ++ behind) = file.packageName?
  scanned : ∀ tail, (rest = [] → ∃ others, tail = '\n' :: others) →
    scan? false (markless (head ++ tail)) = (scan? true tail).map (tokens ++ ·)

theorem isHead_of_clauseAt {file : SourceFile} {head rest : Text} {front behind : List Token}
    {opening name : Token} {before later : List Tree} {pieces : List Piece}
    (cut : tokens? file.source = some (front ++ opening :: name :: behind))
    (here : ClauseAt (front ++ opening :: name :: behind) file.items front opening name behind
      before later)
    (line : LineCut file.source name.stop head rest) (inLine : Cuts file.clauseRest pieces []) :
    IsHead file head rest
      ((front ++ [opening, name]).map Token.plain ++ plainTokens false pieces) := by
  have opened : file.packageClause? = some (clauseTree opening name) :=
    here.packageClause?_eq file.source
  constructor
  · intro tokens
    have free : ∀ token ∈ front.map Token.plain, token.terminal ≠ .keyword .packageWord := by
      simpa using here.free
    have first := @wordBehindPackage_append opening.plain _ free here.isWord
      name.plain (plainTokens false pieces ++ tokens)
    rw [packageName?, opened, Option.map_some, clauseName_clauseTree, ← Token.text_plain name,
      ← first]
    simp
  · intro tail opens
    rw [List.append_cons] at cut
    simp only [clauseRest, opened] at inLine
    rw [scan?_head cut here.isName (after?_ne_nil here.followed) line inLine opens]
    simp

/-! ## What stands around a declaration -/

theorem importsOf_append_declarationTree {text : Text} {imports : List Import}
    {body : List Tree} (isText : IsDeclarationText text imports body) (before later : List Tree) :
    importsOf (before ++ declarationTree importToken body :: later) =
      importsOf before ++ imports ++ importsOf later := by
  rw [importsOf_append, importsOf_declarationTree, importSpecs_declarationTree isText.isImported,
    isText.imports_eq, List.append_assoc]

/-- An import declaration behind the line of the package clause adds its imports to
those around it, and whether the file can be read does not depend on it. -/
theorem exists_around {file : SourceFile} {clause : Tree} {head rest : Text}
    (read : ofText? file.source = some file) (opened : file.packageClause? = some clause)
    (line : LineCut file.source clause.stop head rest)
    (inLine : (scan? false file.clauseRest).isSome) (behind : Text) :
    ∃ around : Option (List Import × List Import), ∀ text imports body,
      IsDeclarationText text imports body → ∀ property : Option Text → List Import → Prop,
        (∃ grown, ofText? (head ++ ['\n'] ++ text ++ behind) = some grown ∧
            property grown.packageName? grown.imports) ↔
          ∃ left right, around = some (left, right) ∧
            property file.packageName? (left ++ imports ++ right) := by
  obtain ⟨front, opening, name, following, _, _, cut, rfl, here⟩ :=
    exists_tokens_at_clause read opened
  obtain ⟨_, found⟩ := Option.isSome_iff_exists.mp inLine
  obtain ⟨pieces, cuts, _⟩ := exists_cuts_of_scan? found
  have isHead := isHead_of_clauseAt cut here line cuts
  generalize (front ++ [opening, name]).map Token.plain ++ plainTokens false pieces = first
    at isHead
  have scanned {text : Text} {imports : List Import} {body : List Tree}
      (isText : IsDeclarationText text imports body) :
      scan? false (markless (head ++ ['\n'] ++ text ++ behind)) =
        (scan? false behind).map fun tokens =>
          first ++ importToken :: (Tree.tokensOfAll body ++ tokens) := by
    have tail : head ++ ['\n'] ++ text ++ behind = head ++ '\n' :: (text ++ behind) := by simp
    rw [tail, isHead.scanned _ fun _ => ⟨_, rfl⟩, scan?_newline, isText.scanned, Option.map_map]
    rfl
  cases after : scan? false behind with
  | none =>
      refine ⟨none, fun text imports body isText property => ?_⟩
      rw [exists_ofText?_iff, scanned isText, after]
      simp
  | some others =>
      obtain ⟨outcome, _, outcomes⟩ :=
        @items?_append .importWord importToken rfl rfl first
      have parsed {text : Text} {imports : List Import} {body : List Tree}
          (isText : IsDeclarationText text imports body) :
          items? (first ++ importToken :: (Tree.tokensOfAll body ++ others)) =
            outcome.bind fun trees => (after? others).map fun later =>
              trees ++ declarationTree importToken body :: later := by
        rw [outcomes, items?_declarationTree rfl isText.isImported]
        simp only [Option.map_map]
        rfl
      refine ⟨outcome.bind fun trees => (after? others).map fun later =>
        (importsOf trees, importsOf later), fun text imports body isText property => ?_⟩
      have result := parsed isText
      rw [exists_ofText?_iff, scanned isText, after, Option.map_some]
      constructor
      · rintro ⟨tokens, items, found, read, holds⟩
        obtain rfl := Option.some.inj found
        obtain ⟨trees, known, read⟩ := Option.bind_eq_some_iff.mp (result.symm.trans read)
        obtain ⟨later, followed, rfl⟩ := Option.map_eq_some_iff.mp read
        rw [isHead.named, importsOf_append_declarationTree isText] at holds
        exact ⟨_, _, by rw [known, Option.bind_some, followed, Option.map_some], holds⟩
      · rintro ⟨left, right, known, holds⟩
        obtain ⟨trees, before, known⟩ := Option.bind_eq_some_iff.mp known
        obtain ⟨later, followed, same⟩ := Option.map_eq_some_iff.mp known
        obtain ⟨rfl, rfl⟩ := Prod.mk.inj same
        rw [before, Option.bind_some, followed, Option.map_some] at result
        refine ⟨_, _, rfl, result, ?_⟩
        rwa [isHead.named, importsOf_append_declarationTree isText]

end SourceFile

end Go

end Scaffold
