import Scaffold.Proofs.Contract.Entries
import Scaffold.Proofs.Go.TypeSyntax

/-!
# Lists of parameters without names

A list of types is read back as its types where every comma between two of them,
and no comma inside one, stands outside of all brackets, and where each of them
is known for a type: it begins with a word that only types begin with, or it is
written without blanks.  Commas can only be out of place where a literal inside a
type holds a bracket.
-/

namespace Scaffold

namespace Signature

/-! ## Commas inside of brackets -/

/-- Every bracket that is opened is closed, and none is closed before. -/
structure IsNested (text : Text) : Prop where
  level : depth text = 0
  bounded : ∀ left right, text = left ++ right → 0 ≤ depth left

/-- All brackets match, and every comma stands between some. -/
structure IsSealed (text : Text) : Prop extends IsNested text where
  inside : ∀ left right, text = left ++ ',' :: right → 0 < depth left

variable {left right text : Text}

theorem IsNested.append (first : IsNested left) (second : IsNested right) :
    IsNested (left ++ right) where
  level := by rw [depth_append, first.level, second.level, Int.add_zero]
  bounded := by
    intro front back split
    rcases List.append_eq_append_iff.mp split with ⟨middle, rfl, later⟩ | ⟨middle, same, -⟩
    · rw [depth_append, first.level, Int.zero_add]
      exact second.bounded middle back later
    · exact first.bounded front middle same

theorem IsSealed.append (first : IsSealed left) (second : IsSealed right) :
    IsSealed (left ++ right) where
  toIsNested := first.toIsNested.append second.toIsNested
  inside := by
    intro front back split
    rcases List.append_eq_append_iff.mp split with ⟨middle, rfl, later⟩ | ⟨middle, same, later⟩
    · rw [depth_append, first.level, Int.zero_add]
      exact second.inside middle back later
    · cases middle with
      | nil =>
          have empty := second.inside [] back later.symm
          simp at empty
      | cons comma middle =>
          obtain ⟨rfl, -⟩ := List.cons.inj later
          exact first.inside front middle same

theorem depth_of_flat (flat : ∀ character ∈ text, depthChange character = 0) :
    depth text = 0 := by
  induction text with
  | nil => rfl
  | cons character rest induction =>
      obtain ⟨here, later⟩ := List.forall_mem_cons.mp flat
      rw [depth_cons, here, induction later, Int.add_zero]

theorem isNested_of_flat (flat : ∀ character ∈ text, depthChange character = 0) :
    IsNested text where
  level := depth_of_flat flat
  bounded := by
    rintro front back rfl
    rw [depth_of_flat fun character member => flat character (List.mem_append_left _ member)]

theorem isSealed_of_flat (flat : ∀ character ∈ text, depthChange character = 0)
    (noComma : ',' ∉ text) : IsSealed text where
  toIsNested := isNested_of_flat flat
  inside := by
    rintro front back rfl
    simp at noComma

/-- Brackets around a text whose own brackets match. -/
theorem IsNested.enclosed {opening closing : Char} (opens : depthChange opening = 1)
    (closes : depthChange closing = -1) (nested : IsNested text) :
    IsSealed (opening :: text ++ [closing]) where
  level := by
    simp only [List.cons_append, depth_cons, depth_append, depth_nil, opens, closes, nested.level]
    rfl
  bounded := by
    intro front back split
    cases front with
    | nil => exact Int.le_refl 0
    | cons first front =>
        obtain ⟨rfl, rest⟩ := List.cons.inj split
        rw [depth_cons, opens]
        rcases List.append_eq_append_iff.mp rest with ⟨middle, rfl, last⟩ | ⟨middle, same, -⟩
        · rw [depth_append, nested.level]
          cases middle with
          | nil => simp
          | cons bracket middle =>
              obtain ⟨rfl, nothing⟩ := List.cons.inj last
              rw [(List.append_eq_nil_iff.mp nothing.symm).1]
              simp [closes]
        · have inside := nested.bounded front middle same
          omega
  inside := by
    have comma : depthChange ',' = 0 := by decide
    intro front back split
    cases front with
    | nil =>
        obtain ⟨rfl, -⟩ := List.cons.inj split
        rw [comma] at opens
        cases opens
    | cons first front =>
        obtain ⟨rfl, rest⟩ := List.cons.inj split
        rw [depth_cons, opens]
        rcases List.append_eq_append_iff.mp rest with ⟨middle, -, last⟩ | ⟨middle, same, -⟩
        · cases middle with
          | nil =>
              obtain ⟨rfl, -⟩ := List.cons.inj last
              rw [comma] at closes
              cases closes
          | cons bracket middle => simp at last
        · have inside := nested.bounded front middle same
          omega

/-! ## Brackets and commas alone -/

/-- The brackets and commas of a text. -/
def outline (text : Text) : Text :=
  text.filter fun character => depthChange character != 0 || character == ','

@[simp] theorem outline_append (left right : Text) :
    outline (left ++ right) = outline left ++ outline right :=
  List.filter_append _ _

theorem depth_outline (text : Text) : depth (outline text) = depth text := by
  induction text with
  | nil => rfl
  | cons character rest induction =>
      rw [← List.singleton_append, outline_append, depth_append, induction, depth_append]
      refine congrArg (· + depth rest) ?_
      by_cases flat : depthChange character = 0
      · have single : ∀ found ∈ [character], depthChange found = 0 :=
          List.forall_mem_singleton.mpr flat
        have none : ∀ found ∈ outline [character], depthChange found = 0 :=
          fun found member => single found (List.mem_of_mem_filter member)
        rw [depth_of_flat single, depth_of_flat none]
      · simp [outline, flat]

theorem outline_of_flat
    (flat : ∀ character ∈ text, depthChange character = 0 ∧ character ≠ ',') :
    outline text = [] := by
  rw [outline, List.filter_eq_nil_iff]
  intro character member
  obtain ⟨level, noComma⟩ := flat character member
  simp [level, noComma]

theorem IsSealed.of_outline (closed : IsSealed (outline text)) : IsSealed text where
  level := by rw [← depth_outline, closed.level]
  bounded := by
    rintro left right rfl
    rw [← depth_outline]
    exact closed.bounded _ (outline right) (outline_append left right)
  inside := by
    rintro left right rfl
    rw [← depth_outline]
    refine closed.inside _ (outline right) ?_
    rw [outline_append]
    rfl

theorem stayApart_of_isSealed {texts : List Text} (all : ∀ text ∈ texts, IsSealed text) :
    StayApart texts := by
  constructor
  · intro text member left right split
    have inside := (all text member).inside left right split
    omega
  · intro text member
    exact (all text (List.mem_of_mem_dropLast member)).level

end Signature

namespace Go

namespace TypeSyntax

open Text (isBlank)
open Signature

/-! ## Where the text of a type begins and ends -/

namespace Lexeme

/-- The lexeme may stand at either end of a type. -/
def isSolid : Lexeme → Bool
  | literal _ | lineEnd => false
  | mark operator => operator != .comma
  | _ => true

variable {lexeme : Lexeme}

theorem head_of_isSolid (solid : lexeme.isSolid = true) :
    ∃ first others, lexeme.text = first :: others ∧ isBlank first = false ∧ first ≠ ',' := by
  have ofWord {first : Char} (word : Text.isWord first = true) :
      isBlank first = false ∧ first ≠ ',' := by
    refine ⟨Text.isBlank_of_isWord word, ?_⟩
    rintro rfl
    exact absurd word (by decide)
  cases lexeme with
  | name identifier | label identifier | rest identifier =>
      exact ⟨_, _, rfl, ofWord identifier.isWord_first⟩
  | selected package => exact ⟨_, _, rfl, ofWord package.isWord_first⟩
  | word keyword =>
      obtain ⟨first, others, split⟩ := List.exists_cons_of_ne_nil (wordSpelling_ne_nil keyword)
      exact ⟨first, others, split,
        ofWord (isSmall_of_mem_wordSpelling first (by rw [split]; exact List.mem_cons_self)).word⟩
  | mark operator =>
      obtain ⟨first, others, split⟩ := List.exists_cons_of_ne_nil (spelling_ne_nil operator)
      have all : ∀ entry ∈ operators, entry.2 ≠ .comma → entry.1.head? ≠ some ',' := by decide
      have noComma := all _ (spelling_mem_operators operator) (by simpa [isSolid] using solid)
      rw [split] at noComma
      exact ⟨first, others, split,
        (isMark_of_mem_spelling first (by rw [split]; exact List.mem_cons_self)).solid,
        fun comma => noComma (by rw [comma]; rfl)⟩
  | receive gap => exact ⟨_, _, rfl, by decide, by decide⟩
  | literal | lineEnd => cases solid

theorem last_of_isSolid (solid : lexeme.isSolid = true) :
    ∃ front last, lexeme.text = front ++ [last] ∧ isBlank last = false := by
  have ofEnd (front : Text) {tail : Text} (some : tail ≠ [])
      (closed : ∀ character ∈ tail, isBlank character = false) :
      ∃ start last, front ++ tail = start ++ [last] ∧ isBlank last = false :=
    ⟨front ++ List.dropLast tail, tail.getLast some,
      by rw [List.append_assoc, List.dropLast_append_getLast], closed _ (List.getLast_mem some)⟩
  have ofName (front : Text) (identifier : Identifier) :
      ∃ start last, front ++ identifier.text = start ++ [last] ∧ isBlank last = false :=
    ofEnd front (List.cons_ne_nil _ _) fun character member =>
      Text.isBlank_of_isWord (identifier.isWord_of_mem_text character member)
  cases lexeme with
  | name identifier | label identifier => exact ofName [] identifier
  | selected package before after identifier =>
      simpa [text] using ofName (package.text ++ before.text ++ '.' :: after.text) identifier
  | rest identifier gap =>
      exact ofEnd (identifier.text ++ gap.text) (List.cons_ne_nil _ _)
        (List.all_iff_forall_prop.mp (by decide))
  | word keyword =>
      exact ofEnd [] (wordSpelling_ne_nil keyword) fun character member =>
        Text.isBlank_of_isWord (isSmall_of_mem_wordSpelling character member).word
  | mark operator =>
      exact ofEnd [] (spelling_ne_nil operator) fun character member =>
        (isMark_of_mem_spelling character member).solid
  | receive gap =>
      exact ofEnd (['<', '-'] ++ gap.text) (List.cons_ne_nil _ _)
        (List.all_iff_forall_prop.mp (by decide))
  | literal | lineEnd => cases solid

end Lexeme

/-- The parts that are written in one piece: white space and commas stand inside of
them only. -/
def Part.isWhole : Part → Bool
  | .name | .named | .type | .signature | .parameters | .result | .item | .label => true
  | _ => false

/-- Neither end is loose. -/
def IsFramed (lexemes : List Lexeme) : Prop :=
  (∀ first ∈ lexemes.head?, first.isSolid = true) ∧
    ∀ last ∈ lexemes.getLast?, last.isSolid = true

theorem IsFramed.append {left right : List Lexeme} (first : IsFramed left)
    (second : IsFramed right) : IsFramed (left ++ right) := by
  constructor
  · cases left with
    | nil => exact second.1
    | cons lexeme left => exact first.1
  · intro last ends
    rw [List.getLast?_append] at ends
    cases found : right.getLast? with
    | none =>
        rw [found] at ends
        exact first.2 last ends
    | some final =>
        rw [found] at ends
        exact second.2 last (found ▸ ends)

theorem isFramed_singleton {lexeme : Lexeme} (solid : lexeme.isSolid = true) :
    IsFramed [lexeme] := by
  simp [IsFramed, solid]

theorem IsFramed.cons {lexeme : Lexeme} {lexemes : List Lexeme} (solid : lexeme.isSolid = true)
    (framed : IsFramed lexemes) : IsFramed (lexeme :: lexemes) :=
  (isFramed_singleton solid).append framed

theorem isFramed_enclosed {opening closing : Operator} (inside : List Lexeme)
    (opens : (Lexeme.mark opening).isSolid = true) (closes : (Lexeme.mark closing).isSolid = true) :
    IsFramed (.mark opening :: inside ++ [.mark closing]) := by
  constructor
  · simpa using opens
  · rw [List.getLast?_concat]
    simpa using closes

namespace Expression

theorem isFramed {part : Part} (expression : Expression part) (whole : part.isWhole = true) :
    IsFramed expression.lexemes := by
  induction expression with
  | plain | selected | label => exact isFramed_singleton rfl
  | bare name framed => exact framed rfl
  | instantiated name arguments framed => exact (framed rfl).append (isFramed_enclosed _ rfl rfl)
  | ofName base framed | single type framed | item type framed | results parameters framed =>
      exact framed rfl
  | enclosed | unnamed | named => exact isFramed_enclosed _ rfl rfl
  | pointer target framed | channel element framed | receiver gap element framed
  | function form framed | variadic type framed => exact (framed rfl).cons rfl
  | slice element framed => exact (isFramed_enclosed _ rfl rfl).append (framed rfl)
  | array length element _ framed => exact (isFramed_enclosed _ rfl rfl).append (framed rfl)
  | map key element _ framed =>
      exact ((isFramed_enclosed _ rfl rfl).append (framed rfl)).cons rfl
  | sender element framed => exact ((framed rfl).cons rfl).cons rfl
  | record | interface => exact (isFramed_enclosed _ rfl rfl).cons rfl
  | signature parameters result first second => exact (first rfl).append (second rfl)
  | noResult => exact ⟨nofun, nofun⟩
  | _ => cases whole

end Expression

theorem Written.isEntry {part : Part} (written : Written part) (whole : part.isWhole = true)
    (some : written.expression.lexemes ≠ []) : IsEntry written.text := by
  have framed := written.expression.isFramed whole
  have line : written.line ≠ [] := by
    intro none
    refine some ?_
    rw [← written.spells, none]
    rfl
  constructor
  · obtain ⟨placed, rest, split⟩ := List.exists_cons_of_ne_nil line
    have flush := written.flush placed (by rw [split]; rfl)
    have solid := framed.1 placed.lexeme (by rw [← written.spells, split]; rfl)
    obtain ⟨first, others, begins, closed⟩ := Lexeme.head_of_isSolid solid
    refine ⟨first, others ++ rest.flatMap Placed.text, ?_, closed⟩
    rw [Written.text, split, List.flatMap_cons, Placed.text, flush, begins]
    rfl
  · obtain ⟨rest, placed, split⟩ := (List.eq_nil_or_concat' written.line).resolve_left line
    have solid := framed.2 placed.lexeme (by
      rw [← written.spells, split, List.map_append, List.map_singleton, List.getLast?_concat]
      rfl)
    obtain ⟨front, last, ends, closed⟩ := Lexeme.last_of_isSolid solid
    refine ⟨rest.flatMap Placed.text ++ placed.gap.text ++ front, last, ?_, closed⟩
    rw [Written.text, split, List.flatMap_append, List.flatMap_singleton, Placed.text, ends]
    simp

/-! ## Types that begin with a word of their own -/

open Qualification (IsClear)

/-- The type begins with a word that only types begin with; the arrow before the
word of a channel must be joined to it. -/
def Expression.isKeyworded {part : Part} : Expression part → Bool
  | map .. | channel _ | sender _ | function _ | record _ | interface _ => true
  | receiver gap _ => gap.text.isEmpty
  | item type => type.isKeyworded
  | _ => false

/-- Behind the lexeme a text is known for a type or not, whatever follows. -/
def Lexeme.Decides (lexeme : Lexeme) (known : Bool) : Prop :=
  ∀ rest, (lexeme.runsOn = true → IsClear rest) →
    isTypeExpression (lexeme.text ++ rest) = known

theorem separate_of_isClear {rest : Text} (clear : IsClear rest) :
    ∀ character ∈ rest.head?, Text.isWord character = false :=
  fun character first => (clear character first).1

theorem Identifier.isTypeExpression_append (identifier : Identifier) {rest : Text}
    (ends : ∀ character ∈ rest.head?, Text.isWord character = false) :
    isTypeExpression (identifier.text ++ rest) = false := by
  have reserved : ∀ word ∈ typeBeginnings, word = ['<', '-', 'c', 'h', 'a', 'n'] ∨
      ∃ entry ∈ keywords, entry.1 = word := by
    decide
  have some : identifier.text ≠ [] := List.cons_ne_nil _ _
  rw [Signature.isTypeExpression_append some identifier.isWord_of_mem_text ends,
    decide_eq_false_iff_not]
  intro member
  rcases reserved _ member with arrow | ⟨entry, listed, same⟩
  · have word := identifier.isWord_first
    rw [(List.cons.inj arrow).1] at word
    exact absurd word (by decide)
  · exact identifier.free entry listed same

theorem decides_name (identifier : Identifier) : (Lexeme.name identifier).Decides false :=
  fun _ clear => identifier.isTypeExpression_append (separate_of_isClear (clear rfl))

theorem decides_selected (package identifier : Identifier) (before after : Blank) :
    (Lexeme.selected package before after identifier).Decides false := by
  intro rest _
  have apart :
      ∀ character ∈ (before.text ++ ('.' :: (after.text ++ identifier.text) ++ rest)).head?,
        Text.isWord character = false := by
    by_cases none : before.text = []
    · rw [none]
      rintro character ⟨⟩
      decide
    · exact separate_of_isClear (before.isClear_append none)
  rw [Lexeme.text, List.append_assoc, List.append_assoc]
  exact package.isTypeExpression_append apart

theorem decides_word {keyword : Keyword} (known : wordSpelling keyword ∈ typeBeginnings) :
    (Lexeme.word keyword).Decides true := by
  intro rest clear
  rw [Lexeme.text, Signature.isTypeExpression_append (wordSpelling_ne_nil keyword)
    (fun character member => (isSmall_of_mem_wordSpelling character member).word)
    (separate_of_isClear (clear rfl)), decide_eq_true_iff]
  exact known

theorem decides_mark {operator : Operator} (others : Text) {first : Char}
    (spelled : spelling operator = first :: others)
    (foreign : ∀ beginning ∈ typeBeginnings, beginning.head? ≠ some first) :
    (Lexeme.mark operator).Decides false := by
  intro rest _
  rw [Lexeme.text, spelled]
  exact isTypeExpression_cons _ foreign

theorem decides_receive (gap : Blank) : (Lexeme.receive gap).Decides gap.text.isEmpty := by
  intro rest clear
  by_cases none : gap.text = []
  · rw [Lexeme.text, none, List.append_nil]
    exact isTypeExpression_of_mem (by decide) (separate_of_isClear (clear rfl))
  · obtain ⟨first, others, split⟩ := List.exists_cons_of_ne_nil none
    have space := gap.blank first (by rw [split]; exact List.mem_cons_self)
    have other : 'c' ≠ first := by
      rintro rfl
      exact absurd space (by decide)
    have nothing : gap.text.isEmpty = false := by
      rw [split]
      rfl
    rw [nothing, Lexeme.text, split]
    refine isTypeExpression_of_foreign ?_
    simp [typeBeginnings, other]

namespace Expression

theorem exists_first_of_name (name : Expression .name) :
    ∃ first, name.lexemes = [first] ∧ first.Decides false := by
  cases name with
  | plain identifier => exact ⟨_, rfl, decides_name identifier⟩
  | selected package before after identifier =>
      exact ⟨_, rfl, decides_selected package identifier before after⟩

theorem exists_first_of_type (type : Expression .type) :
    ∃ first others, type.lexemes = first :: others ∧ first.Decides type.isKeyworded := by
  cases type with
  | ofName base =>
      cases base with
      | bare name =>
          obtain ⟨first, lexemes, decides⟩ := name.exists_first_of_name
          exact ⟨first, _, lexemes, decides⟩
      | instantiated name arguments =>
          obtain ⟨first, lexemes, decides⟩ := name.exists_first_of_name
          refine ⟨first, inBrackets arguments.lexemes, ?_, decides⟩
          change name.lexemes ++ inBrackets arguments.lexemes = _
          rw [lexemes]
          rfl
  | enclosed => exact ⟨_, _, rfl, decides_mark [] rfl (by decide)⟩
  | pointer => exact ⟨_, _, rfl, decides_mark [] rfl (by decide)⟩
  | slice => exact ⟨_, _, rfl, decides_mark [] rfl (by decide)⟩
  | array => exact ⟨_, _, rfl, decides_mark [] rfl (by decide)⟩
  | map => exact ⟨_, _, rfl, decides_word (by decide)⟩
  | channel => exact ⟨_, _, rfl, decides_word (by decide)⟩
  | sender => exact ⟨_, _, rfl, decides_word (by decide)⟩
  | function => exact ⟨_, _, rfl, decides_word (by decide)⟩
  | record => exact ⟨_, _, rfl, decides_word (by decide)⟩
  | interface => exact ⟨_, _, rfl, decides_word (by decide)⟩
  | receiver gap => exact ⟨_, _, rfl, decides_receive gap⟩

theorem exists_first_of_item (expression : Expression .item) :
    ∃ first others, expression.lexemes = first :: others ∧
      first.Decides expression.isKeyworded := by
  cases expression with
  | item type => exact type.exists_first_of_type
  | variadic => exact ⟨_, _, rfl, decides_mark ['.', '.'] rfl (by decide)⟩

end Expression

namespace Written

variable (written : Written .item)

theorem isTypeExpression_text :
    isTypeExpression written.text = written.expression.isKeyworded := by
  obtain ⟨first, others, lexemes, decides⟩ := written.expression.exists_first_of_item
  obtain ⟨placed, rest, split, rfl, -⟩ := List.map_eq_cons_iff.mp (written.spells.trans lexemes)
  have flush := written.flush placed (by rw [split]; rfl)
  have apart := written.apart
  rw [split] at apart
  rw [text, split, List.flatMap_cons, Placed.text, flush, List.nil_append]
  exact decides _ (isClear_of_apart apart)

theorem isEntry_item : IsEntry written.text := by
  obtain ⟨first, others, lexemes, -⟩ := written.expression.exists_first_of_item
  exact written.isEntry rfl (by rw [lexemes]; exact List.cons_ne_nil _ _)

end Written

/-- A list of parameters without names, in parentheses. -/
def unnamedList (items : List (Written .item)) : Text :=
  '(' :: Text.join [',', ' '] (items.map Written.text) ++ [')']

/-- A list of types is read as one unnamed parameter for each type, with its text, if
and only if every type begins with a word that only types begin with or is written
without blanks, and the commas of the types stay apart from those between them. -/
theorem parse_unnamedList_iff (items : List (Written .item)) :
    parse (unnamedList items) = .ok (items.map fun item => ⟨[], item.text⟩) ↔
      (∀ item ∈ items, item.expression.isKeyworded = true ∨
          ∀ character ∈ item.text, isBlank character = false) ∧
        StayApart (items.map Written.text) := by
  have parameters : items.map (fun item => (⟨[], item.text⟩ : Parameter)) =
      (items.map Written.text).map fun type => ⟨[], type⟩ := by
    rw [List.map_map]
    rfl
  have proper : ∀ text ∈ items.map Written.text, IsEntry text :=
    List.forall_mem_map.mpr fun item _ => item.isEntry_item
  have unnamed : (∀ type ∈ items.map Written.text, named? type = none) ↔
      ∀ item ∈ items, item.expression.isKeyworded = true ∨
        ∀ character ∈ item.text, isBlank character = false := by
    rw [List.forall_mem_map]
    refine forall₂_congr fun item _ => ?_
    rw [named?_eq_none_iff item.isEntry_item, item.isTypeExpression_text]
  rw [parameters, parse_eq_unnamed_iff, unnamedList, inner_parenthesised,
    segments_join_iff proper, unnamed]
  exact and_comm

/-! ## Types without brackets in literals -/

namespace Lexeme

/-- The brackets and commas of a lexeme, of a literal only the commas. -/
def outline : Lexeme → Text
  | literal value => value.text.filter fun character => character == ','
  | other => Signature.outline other.text

/-- The lexeme holds neither brackets nor commas. -/
def isBare : Lexeme → Bool
  | literal _ => false
  | mark operator => (spelling operator).all fun character =>
    depthChange character == 0 && character != ','
  | _ => true

theorem outline_of_isBare {lexeme : Lexeme} (bare : lexeme.isBare = true) :
    lexeme.outline = [] := by
  have ofIdentifier (identifier : Identifier) : Signature.outline identifier.text = [] :=
    outline_of_flat fun character member =>
      flat_of_isWord (identifier.isWord_of_mem_text character member)
  have ofBlank (blank : Blank) : Signature.outline blank.text = [] :=
    outline_of_flat fun character member =>
      flat_of_isBlank (Text.isBlank_of_isSpace (blank.blank character member))
  have dot : Signature.outline ['.'] = [] := by decide
  cases lexeme with
  | name identifier | label identifier => exact ofIdentifier identifier
  | selected package before after identifier =>
      change Signature.outline
        (package.text ++ (before.text ++ (['.'] ++ (after.text ++ identifier.text)))) = []
      simp only [outline_append, ofIdentifier, ofBlank, dot, List.append_nil]
  | rest identifier gap =>
      have dots : Signature.outline ['.', '.', '.'] = [] := by decide
      change Signature.outline (identifier.text ++ gap.text ++ ['.', '.', '.']) = []
      simp only [outline_append, ofIdentifier, ofBlank, dots, List.append_nil]
  | literal => cases bare
  | word keyword =>
      exact outline_of_flat fun character member =>
        flat_of_isWord (isSmall_of_mem_wordSpelling character member).word
  | mark operator =>
      refine outline_of_flat fun character member => ?_
      simpa using List.all_eq_true.mp bare character member
  | receive gap =>
      have arrow : Signature.outline ['<', '-'] = [] := by decide
      have word : Signature.outline ['c', 'h', 'a', 'n'] = [] := by decide
      change Signature.outline (['<', '-'] ++ gap.text ++ ['c', 'h', 'a', 'n']) = []
      simp only [outline_append, ofBlank, arrow, word, List.append_nil]
  | lineEnd => decide

end Lexeme

/-- The brackets and commas of lexemes, without the brackets of literals. -/
def outlineOf (lexemes : List Lexeme) : Text :=
  lexemes.flatMap Lexeme.outline

variable {lexeme : Lexeme} {lexemes left right : List Lexeme}

theorem isSealed_nil : IsSealed (outlineOf []) :=
  isSealed_of_flat nofun nofun

theorem outlineOf_cons (bare : lexeme.isBare = true) :
    outlineOf (lexeme :: lexemes) = outlineOf lexemes := by
  rw [outlineOf, List.flatMap_cons, Lexeme.outline_of_isBare bare]
  rfl

theorem isNested_cons (bare : lexeme.isBare = true) (nested : IsNested (outlineOf lexemes)) :
    IsNested (outlineOf (lexeme :: lexemes)) := by
  rwa [outlineOf_cons bare]

theorem isSealed_cons (bare : lexeme.isBare = true) (closed : IsSealed (outlineOf lexemes)) :
    IsSealed (outlineOf (lexeme :: lexemes)) := by
  rwa [outlineOf_cons bare]

theorem isNested_append (first : IsNested (outlineOf left)) (second : IsNested (outlineOf right)) :
    IsNested (outlineOf (left ++ right)) := by
  rw [outlineOf, List.flatMap_append]
  exact first.append second

theorem isSealed_append (first : IsSealed (outlineOf left)) (second : IsSealed (outlineOf right)) :
    IsSealed (outlineOf (left ++ right)) := by
  rw [outlineOf, List.flatMap_append]
  exact first.append second

theorem isSealed_inParentheses (nested : IsNested (outlineOf lexemes)) :
    IsSealed (outlineOf (inParentheses lexemes)) := by
  have closed : IsSealed ('(' :: outlineOf lexemes ++ [')']) :=
    nested.enclosed (by decide) (by decide)
  rwa [inParentheses, outlineOf, List.flatMap_append]

theorem isSealed_inBrackets (nested : IsNested (outlineOf lexemes)) :
    IsSealed (outlineOf (inBrackets lexemes)) := by
  have closed : IsSealed ('[' :: outlineOf lexemes ++ [']']) :=
    nested.enclosed (by decide) (by decide)
  rwa [inBrackets, outlineOf, List.flatMap_append]

theorem isSealed_inBraces (nested : IsNested (outlineOf lexemes)) :
    IsSealed (outlineOf (inBraces lexemes)) := by
  have closed : IsSealed ('\x7b' :: outlineOf lexemes ++ ['\x7d']) :=
    nested.enclosed (by decide) (by decide)
  rwa [inBraces, outlineOf, List.flatMap_append]

theorem isNested_literal (value : Literal) : IsNested (outlineOf [.literal value]) := by
  refine isNested_of_flat fun character member => ?_
  have listed : character ∈ (Lexeme.literal value).outline := by
    simpa [outlineOf] using member
  have comma := (List.mem_filter.mp listed).2
  rw [beq_iff_eq.mp comma]
  decide

theorem isNested_separator {part : Part} {separator : Lexeme}
    (between : separator ∈ part.separators) : IsNested (outlineOf [separator]) := by
  have comma : IsNested (outlineOf [.mark .comma]) :=
    isNested_of_flat (List.forall_mem_singleton.mpr (by decide))
  have bare {lexeme : Lexeme} (bare : lexeme.isBare = true) : IsNested (outlineOf [lexeme]) :=
    isNested_cons bare isSealed_nil.toIsNested
  unfold Part.separators at between
  split at between
  · rcases List.mem_pair.mp between with rfl | rfl
    · exact bare rfl
    · exact bare rfl
  · rcases List.mem_pair.mp between with rfl | rfl
    · exact bare rfl
    · exact bare rfl
  · rw [List.mem_singleton.mp between]
    exact bare rfl
  · rw [List.mem_singleton.mp between]
    exact comma

/-- The brackets of lexemes match, and the commas of a part that is written in one
piece stand between brackets. -/
def Part.Holds (part : Part) (lexemes : List Lexeme) : Prop :=
  IsNested (outlineOf lexemes) ∧ (part.isWhole = true → IsSealed (outlineOf lexemes))

theorem Part.holds_of_isSealed {part : Part} (closed : IsSealed (outlineOf lexemes)) :
    part.Holds lexemes :=
  ⟨closed.toIsNested, fun _ => closed⟩

theorem Part.holds_of_isNested {part : Part} (loose : part.isWhole = false)
    (nested : IsNested (outlineOf lexemes)) : part.Holds lexemes :=
  ⟨nested, fun whole => by rw [loose] at whole; cases whole⟩

open Part in
theorem Expression.holds {part : Part} (expression : Expression part) :
    part.Holds expression.lexemes := by
  induction expression with
  | plain | selected | label => exact holds_of_isSealed (isSealed_cons rfl isSealed_nil)
  | noResult => exact holds_of_isSealed isSealed_nil
  | bare _ inner | ofName _ inner | single _ inner | item _ inner | results _ inner =>
      exact holds_of_isSealed (inner.2 rfl)
  | instantiated _ _ name inner =>
      exact holds_of_isSealed (isSealed_append (name.2 rfl) (isSealed_inBrackets inner.1))
  | enclosed _ inner | unnamed _ inner | named _ inner =>
      exact holds_of_isSealed (isSealed_inParentheses inner.1)
  | pointer _ inner | channel _ inner | receiver _ _ inner | function _ inner
  | variadic _ inner =>
      exact holds_of_isSealed (isSealed_cons rfl (inner.2 rfl))
  | sender _ inner => exact holds_of_isSealed (isSealed_cons rfl (isSealed_cons rfl (inner.2 rfl)))
  | slice _ inner =>
      exact holds_of_isSealed
        (isSealed_append (isSealed_inBrackets isSealed_nil.toIsNested) (inner.2 rfl))
  | array _ _ length inner =>
      exact holds_of_isSealed (isSealed_append (isSealed_inBrackets length.1) (inner.2 rfl))
  | map _ _ key inner =>
      exact holds_of_isSealed
        (isSealed_cons rfl (isSealed_append (isSealed_inBrackets key.1) (inner.2 rfl)))
  | record _ inner | interface _ inner =>
      exact holds_of_isSealed (isSealed_cons rfl (isSealed_inBraces inner.1))
  | signature _ _ parameters result =>
      exact holds_of_isSealed (isSealed_append (parameters.2 rfl) (result.2 rfl))
  | group _ _ names inner | column _ _ names inner =>
      exact holds_of_isNested rfl (isNested_append names.1 inner.1)
  | rest _ _ _ inner | embeddedPointer _ inner | method _ _ inner | underlying _ inner =>
      exact holds_of_isNested rfl (isNested_cons rfl inner.1)
  | embedded _ inner | untagged _ inner | union _ inner | term _ inner | constant _ inner
  | typeArgument _ inner | constantArgument _ inner | value _ inner | unkeyed _ inner
  | last _ inner | exact _ inner | full _ inner =>
      exact holds_of_isNested rfl inner.1
  | tagged _ tag _ inner =>
      exact holds_of_isNested rfl (isNested_append inner.1 (isNested_literal tag))
  | literal spelled => exact holds_of_isNested rfl (isNested_literal spelled)
  | unary operator known _ inner =>
      have bare : ∀ operator ∈ unaryOperators, (Lexeme.mark operator).isBare = true := by decide
      exact holds_of_isNested rfl (isNested_cons (bare operator known) inner.1)
  | binary _ operator known _ left right =>
      have bare : ∀ operator ∈ binaryOperators, (Lexeme.mark operator).isBare = true := by decide
      exact holds_of_isNested rfl
        (isNested_append left.1 (isNested_cons (bare operator known) right.1))
  | enclosedConstant _ inner =>
      exact holds_of_isNested rfl (isSealed_inParentheses inner.1).toIsNested
  | call _ _ callee inner =>
      exact holds_of_isNested rfl
        (isNested_append callee.1 (isSealed_inParentheses inner.1).toIsNested)
  | index _ _ operand inner =>
      exact holds_of_isNested rfl
        (isNested_append operand.1 (isSealed_inBrackets inner.1).toIsNested)
  | composite _ _ type inner =>
      exact holds_of_isNested rfl (isNested_append type.1 (isSealed_inBraces inner.1).toIsNested)
  | counted _ _ element inner =>
      have dots : IsNested (outlineOf [.mark .ellipsis]) :=
        isNested_cons rfl isSealed_nil.toIsNested
      exact holds_of_isNested rfl
        (isNested_append (isNested_append (isSealed_inBrackets dots).toIsNested element.1)
          (isSealed_inBraces inner.1).toIsNested)
  | nested _ inner => exact holds_of_isNested rfl (isSealed_inBraces inner.1).toIsNested
  | keyed _ _ key inner =>
      exact holds_of_isNested rfl (isNested_append key.1 (isNested_cons rfl inner.1))
  | ofField _ _ inner => exact holds_of_isNested rfl (isNested_cons rfl (isNested_cons rfl inner.1))
  | more _ separator between _ inner others =>
      exact holds_of_isNested rfl
        (isNested_append inner.1 (isNested_append (isNested_separator between) others.1))
  | trailed _ separator between inner =>
      exact holds_of_isNested rfl (isNested_append inner.1 (isNested_separator between))
  | empty => exact holds_of_isNested rfl isSealed_nil.toIsNested

/-- No literal of the expression holds a bracket. -/
def Expression.IsPlain {part : Part} (expression : Expression part) : Prop :=
  ∀ value, .literal value ∈ expression.lexemes →
    ∀ character ∈ value.text, depthChange character = 0

theorem Lexeme.outline_text {lexeme : Lexeme}
    (plain : ∀ value, lexeme = .literal value →
      ∀ character ∈ value.text, depthChange character = 0) :
    Signature.outline lexeme.text = lexeme.outline := by
  cases lexeme with
  | literal value =>
      refine List.filter_congr fun character member => ?_
      rw [plain value rfl character member]
      rfl
  | _ => rfl

theorem Written.isSealed_item {written : Written .item} (plain : written.expression.IsPlain) :
    IsSealed written.text := by
  have outlines : ∀ line : List Placed, (∀ placed ∈ line, ∀ value,
      placed.lexeme = .literal value → ∀ character ∈ value.text, depthChange character = 0) →
        Signature.outline (line.flatMap Placed.text) = outlineOf (line.map Placed.lexeme) := by
    intro line
    induction line with
    | nil => exact fun _ => rfl
    | cons placed rest induction =>
        intro each
        obtain ⟨here, later⟩ := List.forall_mem_cons.mp each
        have blank : Signature.outline placed.gap.text = [] :=
          outline_of_flat fun character member =>
            flat_of_isBlank (Text.isBlank_of_isSpace (placed.gap.blank character member))
        rw [List.flatMap_cons, Placed.text, outline_append, outline_append, blank,
          Lexeme.outline_text here, induction later]
        rfl
  refine IsSealed.of_outline ?_
  rw [Written.text, outlines written.line, written.spells]
  · exact written.expression.holds.2 rfl
  · intro placed member value same
    refine plain value ?_
    rw [← written.spells, ← same]
    exact List.mem_map_of_mem member

theorem stayApart_of_isPlain {items : List (Written .item)}
    (plain : ∀ item ∈ items, item.expression.IsPlain) : StayApart (items.map Written.text) :=
  stayApart_of_isSealed (List.forall_mem_map.mpr fun item member =>
    Written.isSealed_item (plain item member))

/-! ## A slice of functions -/

def errorName : Identifier :=
  ⟨'e', ['r', 'r', 'o', 'r'], by decide, List.all_iff_forall_prop.mp (by decide), by decide⟩

def intName : Identifier :=
  ⟨'i', ['n', 't'], by decide, List.all_iff_forall_prop.mp (by decide), by decide⟩

def intItem : Written .item where
  expression := .item (.ofName (.bare (.plain intName)))
  line := [⟨.none, .name intName⟩]
  spells := rfl
  flush := by decide
  apart := by decide

/-- A type with a blank that begins with a bracket. -/
def functionsItem : Written .item where
  expression := .item (.slice (.function (.signature
    (.unnamed (.full (.exact (.last (.item (.ofName (.bare (.plain intName))))))))
    (.single (.ofName (.bare (.plain errorName)))))))
  line :=
    [⟨.none, .mark .openBracket⟩, ⟨.none, .mark .closeBracket⟩, ⟨.none, .word .funcWord⟩,
      ⟨.none, .mark .openParenthesis⟩, ⟨.none, .name intName⟩,
      ⟨.none, .mark .closeParenthesis⟩, ⟨.space, .name errorName⟩]
  spells := rfl
  flush := by decide
  apart := by decide

/-- The beginning of the type up to its blank is taken for a name. -/
theorem not_parsed_functionsItem :
    unnamedList [functionsItem, intItem] = "([]func(int) error, int)" ∧
      parse (unnamedList [functionsItem, intItem]) =
        .error ⟨"[]func(int) error, int", ["int"]⟩ := by
  decide +kernel

end TypeSyntax

end Go

end Scaffold
