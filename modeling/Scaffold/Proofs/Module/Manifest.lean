import Scaffold.Module.Manifest
import Scaffold.Proofs.Text.Blank
import Scaffold.Proofs.Text.Lines

/-!
# Manifests name what is written in them

A line is a directive if it has the word and something behind it once its comment
is cut off.  The path of the first directive is read as it was written, bare or
between marks, whatever stands around the line.
-/

namespace Scaffold

namespace Text

theorem isBlank_of_isLineEnd {character : Char} (ends : isLineEnd character = true) :
    isBlank character = true := by
  simp only [isLineEnd, isBlank, Bool.or_eq_true, Bool.and_eq_true, decide_eq_true_eq,
    beq_iff_eq] at ends ⊢
  omega

/-- White space within a line. -/
def IsGap (text : Text) : Prop :=
  ∀ character ∈ text, isBlank character = true ∧ isLineEnd character = false

instance (text : Text) : Decidable (IsGap text) :=
  List.decidableBAll _ text

theorem IsGap.isBlank {text : Text} (gap : IsGap text) :
    ∀ character ∈ text, Text.isBlank character = true :=
  fun character member => (gap character member).1

theorem IsGap.isUnbroken {text : Text} (gap : IsGap text) : IsUnbroken text :=
  fun character member => (gap character member).2

theorem IsGap.not_mem {text : Text} (gap : IsGap text) {character : Char}
    (solid : Text.isBlank character = false) : character ∉ text := by
  intro member
  rw [gap.isBlank character member] at solid
  exact Bool.noConfusion solid

end Text

namespace Manifest

open Text (IsGap IsUnbroken isBlank before trimStart)

/-! ## Comments -/

theorem before_append {front rest : Text} (single : ¬ commentMark <:+: front)
    (apart : front.getLast? = some '/' → rest.head? ≠ some '/') :
    before commentMark (front ++ rest) = front ++ before commentMark rest := by
  induction front with
  | nil => rfl
  | cons character front induction =>
      have begins : Text.startsWith commentMark (character :: (front ++ rest)) = false := by
        rw [← Bool.not_eq_true, Text.startsWith, List.isPrefixOf_iff_prefix]
        rintro ⟨behind, same⟩
        obtain ⟨rfl, second⟩ := List.cons.inj same
        cases front with
        | nil => exact apart rfl (by rw [← List.nil_append rest, ← second]; rfl)
        | cons next front =>
            obtain ⟨rfl, _⟩ := List.cons.inj second
            exact single ⟨[], front, rfl⟩
      have later : ¬ commentMark <:+: front := by
        rintro ⟨left, right, rfl⟩
        exact single ⟨character :: left, right, rfl⟩
      have ending : front.getLast? = some '/' → rest.head? ≠ some '/' := by
        intro last
        apply apart
        rw [List.getLast?_cons, last]
        rfl
      rw [List.cons_append, before, begins, if_neg Bool.false_ne_true, induction later ending,
        List.cons_append]

theorem before_append_of_not_mem {front : Text} (clean : '/' ∉ front) (rest : Text) :
    before commentMark (front ++ rest) = front ++ before commentMark rest := by
  apply before_append
  · rintro ⟨left, right, rfl⟩
    exact clean (by simp [commentMark])
  · intro last
    exact absurd (List.mem_of_getLast? last) clean

/-! ## Directives -/

/-- A line whose comment is cut off is a directive: the word, which may be indented,
and something else apart from it. -/
def IsDirective (line : Text) : Prop :=
  ∃ indentation gap first behind, line = indentation ++ directive ++ gap ++ first :: behind ∧
    (∀ character ∈ indentation, isBlank character = true) ∧
    gap ≠ [] ∧ (∀ character ∈ gap, isBlank character = true) ∧ isBlank first = false

theorem directivePath?_eq_some_iff {line path : Text} :
    directivePath? line = some path ↔
      ∃ mark rest first behind, trimStart line = directive ++ mark :: rest ∧
        isBlank mark = true ∧ trimStart rest = first :: behind ∧
        path = pathOf (first :: behind) := by
  unfold directivePath?
  dsimp only
  constructor
  · intro named
    split at named
    · rename_i begins
      obtain ⟨rest, whole⟩ := List.isPrefixOf_iff_prefix.mp begins
      rw [← whole, List.drop_left] at named
      cases rest with
      | nil => simp at named
      | cons mark rest =>
          cases blank : isBlank mark with
          | false =>
              rw [trimStart, List.dropWhile_cons, blank] at named
              simp [blank] at named
          | true =>
              rw [trimStart, List.dropWhile_cons, if_pos blank, ← trimStart] at named
              cases behind : trimStart rest with
              | nil => simp [behind] at named
              | cons first others =>
                  simp only [behind, blank, if_true, Option.some.injEq] at named
                  exact ⟨mark, rest, first, others, whole.symm, blank, behind, named.symm⟩
    · simp at named
  · rintro ⟨mark, rest, first, behind, trimmed, blank, after, rfl⟩
    have begins : Text.startsWith directive (directive ++ mark :: rest) = true :=
      List.isPrefixOf_iff_prefix.mpr (List.prefix_append _ _)
    have later : trimStart (mark :: rest) = first :: behind := by
      rw [trimStart, List.dropWhile_cons, if_pos blank]
      exact after
    simp only [trimmed, begins, if_true, List.drop_left, later, blank]

/-- The path of a directive is read from what stands behind the gap. -/
theorem directivePath?_append {indentation gap behind : Text} {first : Char}
    (indented : ∀ character ∈ indentation, isBlank character = true) (apart : gap ≠ [])
    (blank : ∀ character ∈ gap, isBlank character = true) (solid : isBlank first = false) :
    directivePath? (indentation ++ directive ++ gap ++ first :: behind) =
      some (pathOf (first :: behind)) := by
  obtain ⟨mark, marks, rfl⟩ := List.exists_cons_of_ne_nil apart
  refine directivePath?_eq_some_iff.mpr
    ⟨mark, marks ++ first :: behind, first, behind, ?_, blank mark List.mem_cons_self, ?_, rfl⟩
  · rw [List.append_assoc, List.append_assoc]
    exact Text.trimStart_append_of_blank indented (by decide) _
  · apply Text.trimStart_append_of_blank _ solid
    exact fun character member => blank character (List.mem_cons_of_mem mark member)

theorem isDirective_of_directivePath? {line path : Text}
    (named : directivePath? line = some path) : IsDirective line := by
  obtain ⟨mark, rest, first, behind, trimmed, blank, after, _⟩ :=
    directivePath?_eq_some_iff.mp named
  obtain ⟨indentation, indented, whole⟩ := Text.exists_blanks line
  obtain ⟨blanks, allBlank, split⟩ := Text.exists_blanks rest
  have something : rest.dropWhile isBlank ≠ [] := by
    rw [← trimStart, after]
    exact List.cons_ne_nil first behind
  obtain ⟨start, others, same, solid⟩ := Text.exists_of_dropWhile_isBlank something
  have begins : start :: others = first :: behind := same.symm.trans after
  refine ⟨indentation, mark :: blanks, first, behind, ?_, indented,
    List.cons_ne_nil mark blanks, ?_, (List.cons.inj begins).1 ▸ solid⟩
  · rw [whole, trimmed, split, after]
    simp
  · intro character member
    rcases List.mem_cons.mp member with rfl | inside
    · exact blank
    · exact allBlank character inside

theorem directivePath?_eq_none_iff {line : Text} :
    directivePath? line = none ↔ ¬ IsDirective line := by
  constructor
  · rintro nameless ⟨indentation, gap, first, behind, rfl, indented, apart, blank, solid⟩
    rw [directivePath?_append indented apart blank solid] at nameless
    simp at nameless
  · intro other
    cases named : directivePath? line with
    | none => rfl
    | some path => exact absurd (isDirective_of_directivePath? named) other

/-! ## Written paths -/

/-- A path that can be written bare and between marks of either kind. -/
structure IsPlain (path : Text) : Prop where
  something : path ≠ []
  solid : ∀ character ∈ path, isBlank character = false
  unquoted : '"' ∉ path ∧ backQuote ∉ path
  single : ¬ commentMark <:+: path

instance (path : Text) : Decidable (IsPlain path) :=
  haveI := List.decidableBAll (fun character => isBlank character = false) path
  haveI := List.instDecidableIsInfixOfDecidableEq commentMark path
  decidable_of_iff (path ≠ [] ∧ (∀ character ∈ path, isBlank character = false) ∧
      ('"' ∉ path ∧ backQuote ∉ path) ∧ ¬ commentMark <:+: path)
    ⟨fun ⟨something, solid, unquoted, single⟩ => ⟨something, solid, unquoted, single⟩,
      fun plain => ⟨plain.something, plain.solid, plain.unquoted, plain.single⟩⟩

theorem IsPlain.not_mem {path : Text} (plain : IsPlain path) {mark : Char}
    (quotes : mark = '"' ∨ mark = backQuote) : mark ∉ path := by
  rcases quotes with rfl | rfl
  · exact plain.unquoted.1
  · exact plain.unquoted.2

theorem pathOf_append {path space : Text} (plain : IsPlain path) (gap : IsGap space) :
    pathOf (path ++ space) = path := by
  have ended : space.takeWhile (fun character => !isBlank character) = [] := by
    cases space with
    | nil => rfl
    | cons first space => simp [gap.isBlank first List.mem_cons_self]
  have bare : (path ++ space).takeWhile (fun character => !isBlank character) = path := by
    rw [List.takeWhile_append_of_pos fun character member => by simp [plain.solid character member],
      ended, List.append_nil]
  obtain ⟨first, others, rfl⟩ := List.exists_cons_of_ne_nil plain.something
  have unmarked : ¬ (first = '"' ∨ first = backQuote) :=
    fun quotes => plain.not_mem quotes List.mem_cons_self
  rw [List.cons_append] at bare ⊢
  rw [pathOf, if_neg unmarked]
  exact bare

theorem pathOf_quoted {path : Text} {mark : Char} (quotes : mark = '"' ∨ mark = backQuote)
    (absent : mark ∉ path) (space : Text) : pathOf (mark :: (path ++ mark :: space)) = path := by
  have body : (path ++ mark :: space).takeWhile (· ≠ mark) = path := by
    have other : ∀ character ∈ path, decide (character ≠ mark) = true := by
      intro character member
      exact decide_eq_true fun same => absent (same ▸ member)
    rw [List.takeWhile_append_of_pos other, List.takeWhile_cons_of_neg (by simp), List.append_nil]
  have closed : quotedBody? mark (mark :: (path ++ mark :: space)) = some path := by
    unfold quotedBody?
    dsimp only
    rw [List.drop_one, List.tail_cons, body, if_pos (by simp)]
  rw [pathOf, if_pos quotes, closed]
  rfl

/-- The parts of a line with a directive. -/
structure DirectiveLine where
  indentation : Text := []
  gap : Text := [' ']
  mark? : Option Char := none
  path : Text
  space : Text := []
  comment? : Option Text := none

namespace DirectiveLine

/-- The path, between marks if it has any. -/
def written (line : DirectiveLine) : Text :=
  match line.mark? with
  | none => line.path
  | some mark => mark :: (line.path ++ [mark])

def comment (line : DirectiveLine) : Text :=
  match line.comment? with
  | none => []
  | some comment => commentMark ++ comment

/-- The line without its comment. -/
def statement (line : DirectiveLine) : Text :=
  line.indentation ++ directive ++ line.gap ++ (line.written ++ line.space)

def text (line : DirectiveLine) : Text :=
  line.statement ++ line.comment

/-- The parts are what they are called, and all of them stand in one line. -/
structure IsProper (line : DirectiveLine) : Prop where
  indentation : IsGap line.indentation
  apart : line.gap ≠ []
  gap : IsGap line.gap
  mark : ∀ mark ∈ line.mark?, mark = '"' ∨ mark = backQuote
  path : IsPlain line.path
  space : IsGap line.space
  comment : ∀ comment ∈ line.comment?, IsUnbroken comment

instance (line : DirectiveLine) : Decidable line.IsProper :=
  haveI : Decidable (∀ mark ∈ line.mark?, mark = '"' ∨ mark = backQuote) :=
    Option.decidableForallMem line.mark?
  decidable_of_iff (IsGap line.indentation ∧ line.gap ≠ [] ∧ IsGap line.gap ∧
      (∀ mark ∈ line.mark?, mark = '"' ∨ mark = backQuote) ∧ IsPlain line.path ∧
      IsGap line.space ∧ ∀ comment ∈ line.comment?, IsUnbroken comment)
    ⟨fun ⟨indentation, apart, gap, mark, path, space, comment⟩ =>
        ⟨indentation, apart, gap, mark, path, space, comment⟩,
      fun proper => ⟨proper.indentation, proper.apart, proper.gap, proper.mark, proper.path,
        proper.space, proper.comment⟩⟩

/-- A bare path that ends in a slash has space between itself and a comment. -/
def IsSeparated (line : DirectiveLine) : Prop :=
  line.mark? = none → line.space = [] → line.path.getLast? = some '/' → line.comment? = none

instance (line : DirectiveLine) : Decidable line.IsSeparated :=
  inferInstanceAs (Decidable (_ → _ → _ → _))

variable {line : DirectiveLine}

theorem exists_written (proper : line.IsProper) :
    ∃ first behind, line.written ++ line.space = first :: behind ∧ isBlank first = false ∧
      pathOf (first :: behind) = line.path := by
  cases marked : line.mark? with
  | none =>
      obtain ⟨first, others, same⟩ := List.exists_cons_of_ne_nil proper.path.something
      have whole : line.written ++ line.space = first :: (others ++ line.space) := by
        simp [written, marked, same]
      refine ⟨first, others ++ line.space, whole, ?_, ?_⟩
      · exact proper.path.solid first (same ▸ List.mem_cons_self)
      · rw [← List.cons_append, ← same]
        exact pathOf_append proper.path proper.space
  | some mark =>
      have quotes := proper.mark mark marked
      have whole : line.written ++ line.space = mark :: (line.path ++ mark :: line.space) := by
        simp [written, marked]
      refine ⟨mark, line.path ++ mark :: line.space, whole, ?_, ?_⟩
      · rcases quotes with rfl | rfl <;> decide
      · exact pathOf_quoted quotes (proper.path.not_mem quotes) line.space

theorem directivePath?_statement (proper : line.IsProper) :
    directivePath? line.statement = some line.path := by
  obtain ⟨first, behind, whole, solid, read⟩ := exists_written proper
  rw [statement, whole, directivePath?_append proper.indentation.isBlank proper.apart
    proper.gap.isBlank solid, read]

theorem before_comment (line : DirectiveLine) : before commentMark line.comment = [] := by
  cases commented : line.comment? with
  | none =>
      rw [comment, commented]
      rfl
  | some told =>
      rw [comment, commented]
      exact if_pos (List.isPrefixOf_iff_prefix.mpr (List.prefix_append _ _))

/-- No comment begins before the end of what is written. -/
theorem before_written (proper : line.IsProper) (separated : line.IsSeparated) :
    before commentMark (line.written ++ (line.space ++ line.comment)) =
      line.written ++ before commentMark (line.space ++ line.comment) := by
  cases marked : line.mark? with
  | none =>
      have same : line.written = line.path := by rw [written, marked]
      rw [same]
      apply before_append proper.path.single
      intro last first
      cases spaced : line.space with
      | nil =>
          have without := separated marked spaced last
          simp [spaced, comment, without] at first
      | cons blank others =>
          have slash : blank = '/' := by
            simpa [spaced] using first
          have member : blank ∈ line.space := spaced ▸ List.mem_cons_self
          exact proper.space.not_mem (show isBlank '/' = false by decide) (slash ▸ member)
  | some mark =>
      have same : line.written = [mark] ++ (line.path ++ [mark]) := by rw [written, marked]; rfl
      have clean : '/' ∉ [mark] := by
        rcases proper.mark mark marked with rfl | rfl <;> decide
      have apart : line.path.getLast? = some '/' →
          ([mark] ++ (line.space ++ line.comment)).head? ≠ some '/' := by
        intro _ first
        exact clean (List.mem_singleton.mpr (Option.some.inj first).symm)
      rw [same, List.append_assoc, List.append_assoc, before_append_of_not_mem clean,
        before_append proper.path.single apart, before_append_of_not_mem clean,
        List.append_assoc, List.append_assoc]

theorem before_text (proper : line.IsProper) (separated : line.IsSeparated) :
    before commentMark line.text = line.statement := by
  have slash : isBlank '/' = false := by decide
  have parts : line.text = line.indentation ++ (directive ++ (line.gap ++
      (line.written ++ (line.space ++ line.comment)))) := by
    simp [text, statement]
  rw [parts, before_append_of_not_mem (proper.indentation.not_mem slash),
    before_append_of_not_mem (show '/' ∉ directive by decide),
    before_append_of_not_mem (proper.gap.not_mem slash), before_written proper separated,
    before_append_of_not_mem (proper.space.not_mem slash), before_comment]
  simp [statement]

theorem isUnbroken_text (proper : line.IsProper) : IsUnbroken line.text := by
  have word : IsUnbroken directive := by decide
  have path : IsUnbroken line.path := by
    intro character member
    by_contra ends
    have blank := Text.isBlank_of_isLineEnd (Bool.not_eq_false _ ▸ ends)
    rw [proper.path.solid character member] at blank
    exact Bool.noConfusion blank
  have written : IsUnbroken line.written := by
    unfold DirectiveLine.written
    split
    · exact path
    · rename_i mark marked
      have quote : IsUnbroken [mark] := by
        rcases proper.mark mark marked with rfl | rfl <;> decide
      exact quote.append (path.append quote)
  have comment : IsUnbroken line.comment := by
    unfold DirectiveLine.comment
    split
    · exact fun _ nothing => absurd nothing List.not_mem_nil
    · rename_i told commented
      have mark : IsUnbroken commentMark := by decide
      exact mark.append (proper.comment told commented)
  have front := (proper.indentation.isUnbroken.append word).append proper.gap.isUnbroken
  exact (front.append (written.append proper.space.isUnbroken)).append comment

theorem text_ne_nil (line : DirectiveLine) : line.text ≠ [] := by
  simp [text, statement, directive]

end DirectiveLine

/-! ## Whole manifests -/

/-- A manifest has a path exactly if one of its lines is a directive without its
comment. -/
theorem modulePath?_eq_none_iff {manifest : Text} :
    modulePath? manifest = none ↔
      ∀ line ∈ Text.lines manifest, ¬ IsDirective (before commentMark line) := by
  simp only [modulePath?, List.findSome?_eq_none_iff, directivePath?_eq_none_iff]

/-- The path of a manifest is the one that is written in its first directive, and
a manifest without directives has none. -/
theorem modulePath?_of_directiveLine :
    (∀ (preamble : Text) (line : DirectiveLine) (rest : Text), Text.EndsLine preamble →
      (∀ other ∈ Text.lines preamble, ¬ IsDirective (before commentMark other)) →
      line.IsProper → line.IsSeparated → Text.BeginsWithLineEnd rest →
        modulePath? (preamble ++ line.text ++ rest) = some line.path) ∧
      ∀ manifest, modulePath? manifest = none ↔
        ∀ line ∈ Text.lines manifest, ¬ IsDirective (before commentMark line) := by
  refine ⟨?_, fun manifest => modulePath?_eq_none_iff⟩
  intro preamble line rest ends others proper separated ended
  obtain ⟨behind, lines⟩ := Text.exists_lines_append ends (DirectiveLine.isUnbroken_text proper)
    line.text_ne_nil ended
  have nothing : modulePath? preamble = none := modulePath?_eq_none_iff.mpr others
  have named : directivePath? (before commentMark line.text) = some line.path := by
    rw [DirectiveLine.before_text proper separated]
    exact DirectiveLine.directivePath?_statement proper
  rw [modulePath?] at nothing ⊢
  rw [lines, List.findSome?_append, nothing, Option.none_or, List.findSome?_cons, named]

/-- A comment, and a word that only begins like the one of a directive. -/
def otherLines : Text := "// module a\r\nmodules b\n"

/-- A path between double quotes with a comment right behind it. -/
def quotedLine : DirectiveLine where
  indentation := ['\t']
  mark? := some '"'
  path := "example.com/app/"
  comment? := some " module c"

theorem modulePath?_of_directiveLine_quoted :
    Text.EndsLine otherLines ∧
      (∀ other ∈ Text.lines otherLines, ¬ IsDirective (before commentMark other)) ∧
      quotedLine.IsProper ∧ quotedLine.IsSeparated ∧ Text.BeginsWithLineEnd "\rmodule d" ∧
      modulePath? (otherLines ++ quotedLine.text ++ ("\rmodule d" : Text)) =
        some "example.com/app/" := by
  have ends : Text.EndsLine otherLines := by decide +kernel
  have others : ∀ other ∈ Text.lines otherLines, ¬ IsDirective (before commentMark other) :=
    fun other member => directivePath?_eq_none_iff.mp
      ((by decide +kernel : ∀ other ∈ Text.lines otherLines,
        directivePath? (before commentMark other) = none) other member)
  have proper : quotedLine.IsProper := by decide +kernel
  have separated : quotedLine.IsSeparated := by decide +kernel
  have ended : Text.BeginsWithLineEnd "\rmodule d" := by decide +kernel
  exact ⟨ends, others, proper, separated, ended,
    modulePath?_of_directiveLine.1 otherLines quotedLine "\rmodule d" ends others proper separated
      ended⟩

/-- A bare path that ends in a slash, with a comment right behind it. -/
def slashLine : DirectiveLine where
  path := "a/"
  comment? := some " c"

/-- The slash at the end of a bare path is taken for the beginning of the comment
that stands right behind it. -/
theorem slash_lost_before_comment :
    slashLine.IsProper ∧ slashLine.text = "module a/// c" ∧
      modulePath? slashLine.text ≠ some slashLine.path := by
  decide +kernel

end Manifest

end Scaffold
