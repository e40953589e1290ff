import Mathlib.Data.List.TakeWhile
import Scaffold.Proofs.Contract.Mentions
import Scaffold.Proofs.Go.TypeSyntax

/-!
# What is qualified in a type

The exported names of types and constants that are written without a package are
the ones to qualify in a type; labels and literals stay as they are.  Which names
are qualified is read off the text alone, so a label or a part of a literal can
be mistaken for such a name, and an upper-case letter that is no ASCII capital
is not seen to begin one.
-/

namespace Scaffold

namespace Qualification

/-! ## Insertions -/

/-- The characters of a text that stands between two others, those marked at
which a qualifier is inserted. -/
def spots (before after : Text) : Text → List (Bool × Char)
  | [] => []
  | character :: rest =>
    (isUnqualified before (character :: (rest ++ after)), character) ::
      spots (character :: before) after rest

/-- The text with the qualifier inserted before every marked character. -/
def insertAt (qualifier : Text) (line : List (Bool × Char)) : Text :=
  line.flatMap fun spot => if spot.1 then qualifier ++ ['.', spot.2] else [spot.2]

/-- The characters with no mark. -/
def unmarked (text : Text) : List (Bool × Char) :=
  text.map fun character => (false, character)

variable {qualifier before after text : Text}

@[simp] theorem insertAt_cons (spot : Bool × Char) (line : List (Bool × Char)) :
    insertAt qualifier (spot :: line) =
      (if spot.1 then qualifier ++ ['.', spot.2] else [spot.2]) ++ insertAt qualifier line :=
  List.flatMap_cons

@[simp] theorem insertAt_append (left right : List (Bool × Char)) :
    insertAt qualifier (left ++ right) = insertAt qualifier left ++ insertAt qualifier right :=
  List.flatMap_append

@[simp] theorem insertAt_unmarked (text : Text) : insertAt qualifier (unmarked text) = text := by
  induction text with
  | nil => rfl
  | cons character rest induction => simpa [unmarked] using induction

@[simp] theorem map_snd_unmarked (text : Text) : (unmarked text).map Prod.snd = text := by
  simp [unmarked, Function.comp_def]

@[simp] theorem map_snd_spots : (spots before after text).map Prod.snd = text := by
  induction text generalizing before with
  | nil => rfl
  | cons character rest induction => rw [spots, List.map_cons, induction]

@[simp] theorem length_spots : (spots before after text).length = text.length := by
  rw [← List.length_map Prod.snd, map_snd_spots]

theorem qualifyFrom_eq_insertAt :
    qualifyFrom qualifier before text = insertAt qualifier (spots before [] text) := by
  induction text generalizing before with
  | nil => rfl
  | cons character rest induction =>
      rw [qualifyFrom, spots, List.append_nil, induction, insertAt_cons]
      split <;> simp

@[simp] theorem unmarked_append (left right : Text) :
    unmarked (left ++ right) = unmarked left ++ unmarked right :=
  List.map_append

@[simp] theorem length_unmarked (text : Text) : (unmarked text).length = text.length :=
  List.length_map _

theorem spots_append (left right : Text) :
    spots before after (left ++ right) =
      spots before (right ++ after) left ++ spots (left.reverse ++ before) after right := by
  induction left generalizing before with
  | nil => rfl
  | cons character rest induction =>
      simp only [List.cons_append, spots, induction, List.reverse_cons, List.append_assoc,
        List.nil_append]

theorem spots_append_eq_unmarked_iff {left right : Text} :
    spots before after (left ++ right) = unmarked (left ++ right) ↔
      spots before (right ++ after) left = unmarked left ∧
        spots (left.reverse ++ before) after right = unmarked right := by
  rw [spots_append, unmarked_append]
  constructor
  · intro same
    exact List.append_inj same (by simp)
  · rintro ⟨first, second⟩
    rw [first, second]

/-! ## Where a qualifier may stand -/

/-- What stands at the end of the word that a text begins with. -/
def stop (text : Text) : Option Char :=
  (text.dropWhile Text.isWord).head?

theorem stop_append_of_isClear (clear : IsClear after)
    (word : ∀ character ∈ text, Text.isWord character = true) :
    stop (text ++ after) ≠ some '.' := by
  rw [stop, List.dropWhile_append_of_pos word]
  cases after with
  | nil => simp
  | cons character rest =>
      obtain ⟨separate, noDot⟩ := clear character rfl
      rw [List.dropWhile_cons_of_neg (by simp [separate])]
      simpa using noDot

/-- A line of marked characters between two texts: every mark is at the beginning
of a word that no dot follows. -/
def IsProper (before after : Text) : List (Bool × Char) → Prop
  | [] => True
  | (mark, character) :: rest =>
    (mark = true → Text.isWord character = true ∧
        (∀ previous ∈ before.head?, Text.isWord previous = false) ∧
        stop (rest.map Prod.snd ++ after) ≠ some '.') ∧
      IsProper (character :: before) after rest

theorem isWord_of_mayBegin (begins : mayBegin before = true) :
    ∀ previous ∈ before.head?, Text.isWord previous = false := by
  intro previous first
  obtain ⟨rest, rfl⟩ := List.head?_eq_some_iff.mp first
  have dot : Text.isWord '.' = false := by decide
  unfold mayBegin at begins
  split at begins
  · simp_all
  · simp_all
  · simp_all

theorem isWord_of_isCapital {character : Char} (capital : isCapital character = true) :
    Text.isWord character = true := by
  rw [isCapital, Bool.and_eq_true, decide_eq_true_eq, decide_eq_true_eq] at capital
  have small : character.toNat < 128 := by omega
  simp [Text.isWord, Text.isAlphanumeric, Text.isAsciiLetter, small, capital.1, capital.2]

theorem isProper_spots : IsProper before after (spots before after text) := by
  induction text generalizing before with
  | nil => trivial
  | cons character rest induction =>
      refine ⟨?_, induction⟩
      intro inserted
      rw [isUnqualified, Bool.and_eq_true, Bool.and_eq_true] at inserted
      obtain ⟨⟨capital, begins⟩, noDot⟩ := inserted
      rw [map_snd_spots]
      exact ⟨isWord_of_isCapital capital, isWord_of_mayBegin begins, by simpa [stop] using noDot⟩

theorem isProper_unmarked : IsProper before after (unmarked text) := by
  induction text generalizing before with
  | nil => trivial
  | cons character rest induction => exact ⟨nofun, induction⟩

theorem isProper_append {left right : List (Bool × Char)}
    (first : IsProper before (right.map Prod.snd ++ after) left)
    (second : IsProper ((left.map Prod.snd).reverse ++ before) after right) :
    IsProper before after (left ++ right) := by
  induction left generalizing before with
  | nil => exact second
  | cons spot rest induction =>
      obtain ⟨here, later⟩ := first
      refine ⟨?_, induction later (by simpa using second)⟩
      rw [List.append_eq, List.map_append, List.append_assoc]
      exact here

/-! ## Different marks make different texts -/

theorem stop_insertAt {line : List (Bool × Char)} {previous : Char}
    (inside : Text.isWord previous = true) (proper : IsProper (previous :: before) [] line) :
    stop (insertAt qualifier line) = stop (line.map Prod.snd) := by
  induction line generalizing previous before with
  | nil => rfl
  | cons spot rest induction =>
      obtain ⟨mark, character⟩ := spot
      obtain ⟨here, later⟩ := proper
      cases mark with
      | true => simpa [inside] using (here rfl).2.1
      | false =>
          have same : insertAt qualifier ((false, character) :: rest) =
              character :: insertAt qualifier rest := by simp
          rw [same, List.map_cons, stop, stop]
          cases word : Text.isWord character with
          | true =>
              rw [List.dropWhile_cons_of_pos word, List.dropWhile_cons_of_pos word]
              exact induction word later
          | false =>
              rw [List.dropWhile_cons_of_neg (by simp [word]),
                List.dropWhile_cons_of_neg (by simp [word])]
              rfl

/-- A qualifier before a word is not mistaken for the word. -/
theorem insertAt_marked_ne {left right : List (Bool × Char)} {character : Char}
    (named : ∀ character ∈ qualifier, Text.isWord character = true)
    (same : left.map Prod.snd = right.map Prod.snd)
    (marked : IsProper before [] ((true, character) :: left))
    (bare : IsProper before [] ((false, character) :: right)) :
    insertAt qualifier ((true, character) :: left) ≠
      insertAt qualifier ((false, character) :: right) := by
  intro equal
  obtain ⟨word, -, noDot⟩ := marked.1 rfl
  have stops : stop (insertAt qualifier ((true, character) :: left)) = some '.' := by
    have split : insertAt qualifier ((true, character) :: left) =
        qualifier ++ '.' :: character :: insertAt qualifier left := by simp
    rw [split, stop, List.dropWhile_append_of_pos named]
    rfl
  have goesOn : stop (insertAt qualifier ((false, character) :: right)) =
      stop (right.map Prod.snd) := by
    have split : insertAt qualifier ((false, character) :: right) =
        character :: insertAt qualifier right := by simp
    rw [split, stop, List.dropWhile_cons_of_pos word]
    exact stop_insertAt word bare.2
  rw [List.append_nil, same, ← goesOn, ← equal, stops] at noDot
  exact noDot rfl

theorem eq_of_insertAt_eq {left right : List (Bool × Char)}
    (named : ∀ character ∈ qualifier, Text.isWord character = true)
    (one : IsProper before [] left) (other : IsProper before [] right)
    (same : left.map Prod.snd = right.map Prod.snd)
    (equal : insertAt qualifier left = insertAt qualifier right) : left = right := by
  induction left generalizing before right with
  | nil => exact (List.map_eq_nil_iff.mp same.symm).symm
  | cons spot left induction =>
      cases right with
      | nil => cases same
      | cons next right =>
          obtain ⟨mark, character⟩ := spot
          obtain ⟨second, letter⟩ := next
          obtain ⟨rfl, rest⟩ := List.cons.inj same
          have onward (behind : insertAt qualifier left = insertAt qualifier right) :
              left = right := induction one.2 other.2 rest behind
          cases mark with
          | true =>
              cases second with
              | true => rw [onward (by simpa using equal)]
              | false => exact absurd equal (insertAt_marked_ne named rest one other)
          | false =>
              cases second with
              | true =>
                  exact absurd equal.symm (insertAt_marked_ne named rest.symm other one)
              | false => rw [onward (by simpa using equal)]

/-! ## The marks of a word -/

theorem spots_of_small (small : ∀ character ∈ text, isCapital character = false) :
    spots before after text = unmarked text := by
  induction text generalizing before with
  | nil => rfl
  | cons character rest induction =>
      obtain ⟨here, later⟩ := List.forall_mem_cons.mp small
      rw [spots, induction later, isUnqualified, here]
      rfl

theorem mayBegin_of_isWord {previous : Char} (word : Text.isWord previous = true) :
    mayBegin (previous :: before) = false := by
  have noDot : previous ≠ '.' := by
    rintro rfl
    exact absurd word (by decide)
  unfold mayBegin
  split <;> simp_all

theorem isUnqualified_of_not_mayBegin (inside : mayBegin before = false) :
    isUnqualified before text = false := by
  cases text with
  | nil => rfl
  | cons character rest => rw [isUnqualified, inside, Bool.and_false, Bool.false_and]

theorem spots_behind_word {previous : Char} (inside : Text.isWord previous = true)
    (word : ∀ character ∈ text, Text.isWord character = true) :
    spots (previous :: before) after text = unmarked text := by
  induction text generalizing previous before with
  | nil => rfl
  | cons character rest induction =>
      obtain ⟨here, later⟩ := List.forall_mem_cons.mp word
      rw [spots, induction here later, isUnqualified_of_not_mayBegin (mayBegin_of_isWord inside)]
      rfl

theorem spots_eq_unmarked_iff :
    spots before [] text = unmarked text ↔
      ∀ left right, text = left ++ right → isUnqualified (left.reverse ++ before) right = false := by
  induction text generalizing before with
  | nil =>
      refine iff_of_true rfl fun left right split => ?_
      rw [(List.append_eq_nil_iff.mp split.symm).2]
      rfl
  | cons character rest induction =>
      have unfolded : spots before [] (character :: rest) = unmarked (character :: rest) ↔
          isUnqualified before (character :: rest) = false ∧
            spots (character :: before) [] rest = unmarked rest := by
        simp [spots, unmarked]
      rw [unfolded, induction]
      constructor
      · rintro ⟨here, later⟩ left right split
        cases left with
        | nil => rw [← List.nil_append right, ← split]; exact here
        | cons first left =>
            obtain ⟨rfl, rfl⟩ := List.cons.inj split
            simpa using later left right rfl
      · intro none
        refine ⟨none [] _ rfl, fun left right split => ?_⟩
        simpa using none (character :: left) right (by rw [split]; rfl)

/-! ## What stands around a text -/

theorem stop_append_eq_dot_iff (clear : IsClear after) :
    stop (text ++ after) = some '.' ↔ stop text = some '.' := by
  induction text with
  | nil =>
      have noDot : stop ([] ++ after) ≠ some '.' := stop_append_of_isClear clear (by simp)
      exact iff_of_false noDot (by simp [stop])
  | cons character rest induction =>
      cases word : Text.isWord character with
      | true => simpa [stop, word] using induction
      | false => simp [stop, word]

theorem mayBegin_append_cons {solid : Char} (noDot : solid ≠ '.') (front : Text) :
    mayBegin (front ++ solid :: before) = mayBegin (front ++ [solid]) := by
  match front with
  | [] => simp [mayBegin, noDot]
  | [first] => by_cases dot : first = '.' <;> simp [mayBegin, dot, noDot]
  | [first, second] =>
      by_cases dot : first = '.' <;> by_cases dots : second = '.' <;>
        simp [mayBegin, dot, dots, noDot]
  | first :: second :: third :: rest =>
      by_cases dot : first = '.' <;> by_cases dots : second = '.' <;>
        by_cases all : third = '.' <;> simp [mayBegin, dot, dots, all]

theorem spots_steady {solid : Char} (noDot : solid ≠ '.') (clear : IsClear after) (front : Text) :
    spots (front ++ solid :: before) after text = spots (front ++ [solid]) [] text := by
  induction text generalizing front with
  | nil => rfl
  | cons character rest induction =>
      have ends : (stop (rest ++ after) != some '.') = (stop rest != some '.') := by
        rw [Bool.eq_iff_iff, bne_iff_ne, bne_iff_ne, ne_eq, ne_eq, stop_append_eq_dot_iff clear]
      have here : isUnqualified (front ++ solid :: before) (character :: (rest ++ after)) =
          isUnqualified (front ++ [solid]) (character :: rest) := by
        rw [isUnqualified, isUnqualified, mayBegin_append_cons noDot]
        exact congrArg _ ends
      rw [spots, spots, List.append_nil, here]
      exact congrArg _ (induction (character :: front))

end Qualification

namespace Go

namespace TypeSyntax

open Qualification

variable {before after : Text}

/-! ## The marks of a lexeme -/

/-- The first letter of the identifier is in upper case. -/
def Identifier.isExported (identifier : Identifier) : Bool :=
  Text.isUpper identifier.first

namespace Lexeme

/-- The lexeme as it is written in another package. -/
def qualified (qualifier : Text) : Lexeme → Text
  | name identifier =>
    if identifier.isExported then qualifier ++ '.' :: identifier.text else identifier.text
  | other => other.text

/-- The characters of the lexeme, that one marked at which it is qualified. -/
def marks : Lexeme → List (Bool × Char)
  | name identifier => (identifier.isExported, identifier.first) :: unmarked identifier.rest
  | other => unmarked other.text

/-- The qualification of texts treats the lexeme as it should be: a name in upper
case begins with an ASCII capital, and nothing in another lexeme is taken for an
exported name without a package. -/
def IsHandled : Lexeme → Prop
  | name identifier => identifier.isExported = true → isCapital identifier.first = true
  | selected package before after identifier =>
    (isCapital package.first = true → before.text = []) ∧
      (isCapital identifier.first = true → after.text = [])
  | label identifier => isCapital identifier.first = false
  | rest identifier gap => isCapital identifier.first = true → gap.text = []
  | literal value =>
    ∀ left right, value.text = left ++ right → isUnqualified left.reverse right = false
  | word _ | mark _ | receive _ | lineEnd => True

theorem insertAt_marks (qualifier : Text) (lexeme : Lexeme) :
    insertAt qualifier lexeme.marks = lexeme.qualified qualifier := by
  cases lexeme with
  | name identifier =>
      rw [marks, qualified, insertAt_cons, insertAt_unmarked]
      split <;> simp [Identifier.text]
  | _ => exact insertAt_unmarked _

theorem map_snd_marks (lexeme : Lexeme) : lexeme.marks.map Prod.snd = lexeme.text := by
  cases lexeme with
  | name identifier => simp [marks, text, Identifier.text]
  | _ => exact map_snd_unmarked _

end Lexeme

namespace Blank

variable (blank : Blank)

theorem spots_eq : spots before after blank.text = unmarked blank.text := by
  refine spots_of_small fun character member => ?_
  by_contra capital
  have word := isWord_of_isCapital (Bool.not_eq_false _ ▸ capital)
  rw [(isGap_of_isSpace (blank.blank character member)).1] at word
  exact Bool.noConfusion word

theorem mayBegin_append (something : blank.text ≠ []) :
    mayBegin (blank.text.reverse ++ before) = true := by
  obtain ⟨last, rest, split⟩ := List.exists_cons_of_ne_nil (List.reverse_ne_nil_iff.mpr something)
  have member : last ∈ blank.text := by
    rw [← List.mem_reverse, split]
    exact List.mem_cons_self
  obtain ⟨separate, noDot⟩ := isGap_of_isSpace (blank.blank last member)
  rw [split, List.cons_append]
  unfold mayBegin
  split <;> simp_all

end Blank

namespace Identifier

variable (identifier : Identifier)

theorem spots_eq : spots before after identifier.text =
    (isUnqualified before (identifier.text ++ after), identifier.first) ::
      unmarked identifier.rest := by
  rw [text, spots, spots_behind_word identifier.isWord_first identifier.isWord_of_mem_rest]
  rfl

theorem spots_eq_unmarked_iff :
    spots before after identifier.text = unmarked identifier.text ↔
      isUnqualified before (identifier.text ++ after) = false := by
  rw [spots_eq, text]
  simp [unmarked]

theorem isUnqualified_eq (begins : mayBegin before = true) (clear : IsClear after) :
    isUnqualified before (identifier.text ++ after) = isCapital identifier.first := by
  have noDot := stop_append_of_isClear clear identifier.isWord_of_mem_rest
  rw [text, List.cons_append, isUnqualified, begins, Bool.and_true]
  rw [show ((identifier.rest ++ after).dropWhile Text.isWord).head? = stop _ from rfl,
    bne_iff_ne.mpr noDot, Bool.and_true]

theorem isUnqualified_before_dot_iff (begins : mayBegin before = true) (gap : Blank)
    (more : Text) :
    isUnqualified before (identifier.text ++ (gap.text ++ '.' :: more)) = false ↔
      (isCapital identifier.first = true → gap.text = []) := by
  by_cases none : gap.text = []
  · have noDot : Text.isWord '.' = false := by decide
    refine iff_of_true ?_ fun _ => none
    rw [none, List.nil_append, text, List.cons_append, isUnqualified,
      List.dropWhile_append_of_pos identifier.isWord_of_mem_rest,
      List.dropWhile_cons_of_neg (by simp [noDot])]
    simp
  · rw [identifier.isUnqualified_eq begins (gap.isClear_append none)]
    simp [none]

theorem isUnqualified_behind_dot_iff (clear : IsClear after) (gap : Blank) {solid : Char}
    (noDot : solid ≠ '.') :
    isUnqualified (gap.text.reverse ++ '.' :: solid :: before) (identifier.text ++ after) = false ↔
      (isCapital identifier.first = true → gap.text = []) := by
  by_cases none : gap.text = []
  · refine iff_of_true (isUnqualified_of_not_mayBegin ?_) fun _ => none
    simp [none, mayBegin, noDot]
  · rw [identifier.isUnqualified_eq (gap.mayBegin_append none) clear]
    simp [none]

end Identifier

theorem isCapital_of_isDecimal {digit : Char} (decimal : isDecimal digit = true) :
    isCapital digit = false ∧ digit ≠ '.' := by
  constructor
  · rw [isDecimal, Text.isAsciiDigit, Bool.and_eq_true, decide_eq_true_eq,
      decide_eq_true_eq] at decimal
    rw [isCapital, Bool.and_eq_false_iff]
    left
    rw [decide_eq_false_iff_not]
    omega
  · rintro rfl
    exact absurd decimal (by decide)

theorem spots_cons_of_small {first : Char} (small : isCapital first = false) (noDot : first ≠ '.')
    (clear : IsClear after) (others : Text) :
    spots before after (first :: others) = (false, first) :: spots [first] [] others := by
  rw [spots, isUnqualified, small, Bool.false_and, Bool.false_and]
  exact congrArg _ (spots_steady noDot clear [])

theorem Literal.spots_eq (literal : Literal) (clear : IsClear after) :
    spots before after literal.text = spots [] [] literal.text := by
  have alone : IsClear [] := nofun
  obtain ⟨first, others, split, begins⟩ := literal.begins
  rw [split]
  by_cases dot : first = '.'
  · have point : others.head?.any isDecimal = true := by
      rcases begins with digit | ⟨-, digit⟩ | quote | quote | quote
      · exact absurd dot (isCapital_of_isDecimal digit).2
      · exact digit
      all_goals exact absurd (dot.symm.trans quote) (by decide)
    cases others with
    | nil => cases point
    | cons digit more =>
        have decimal : isDecimal digit = true := point
        obtain ⟨small, solid⟩ := isCapital_of_isDecimal decimal
        have period : isCapital '.' = false := by decide
        rw [dot, spots, spots_cons_of_small small solid clear, spots,
          spots_cons_of_small small solid alone, isUnqualified, isUnqualified, period,
          Bool.false_and, Bool.false_and, Bool.false_and, Bool.false_and]
  · have small : isCapital first = false := by
      rcases begins with digit | ⟨period, -⟩ | rfl | rfl | rfl
      · exact (isCapital_of_isDecimal digit).1
      · exact absurd period dot
      all_goals decide
    rw [spots_cons_of_small small dot clear, spots_cons_of_small small dot alone]

theorem dot_ne_of_isWord {character : Char} (word : Text.isWord character = true) :
    character ≠ '.' := by
  rintro rfl
  exact absurd word (by decide)

theorem spots_dot_eq_unmarked_iff {text : Text} :
    spots before after ('.' :: text) = unmarked ('.' :: text) ↔
      spots ('.' :: before) after text = unmarked text := by
  have point : isUnqualified before ('.' :: (text ++ after)) = false := rfl
  simp [spots, point, unmarked]

/-- A name behind a package stays as it is unless the dot between them stands
apart from a capital. -/
theorem spots_selected_iff (package identifier : Identifier) (dotGap gap : Blank)
    (begins : mayBegin before = true) (clear : IsClear after) :
    spots before after (Lexeme.selected package dotGap gap identifier).text =
        unmarked (Lexeme.selected package dotGap gap identifier).text ↔
      (isCapital package.first = true → dotGap.text = []) ∧
        (isCapital identifier.first = true → gap.text = []) := by
  obtain ⟨solid, others, turned, noDot⟩ : ∃ solid others,
      dotGap.text.reverse ++ (package.text.reverse ++ before) = solid :: others ∧ solid ≠ '.' := by
    have something : (package.text ++ dotGap.text).reverse ≠ [] := by simp [Identifier.text]
    obtain ⟨solid, others, turned⟩ := List.exists_cons_of_ne_nil something
    have member : solid ∈ package.text ++ dotGap.text := by
      rw [← List.mem_reverse, turned]
      exact List.mem_cons_self
    refine ⟨solid, others ++ before, ?_, ?_⟩
    · rw [← List.append_assoc, ← List.reverse_append, turned, List.cons_append]
    · rcases List.mem_append.mp member with word | blank
      · exact dot_ne_of_isWord (package.isWord_of_mem_text _ word)
      · exact (isGap_of_isSpace (dotGap.blank _ blank)).2
  rw [Lexeme.text, spots_append_eq_unmarked_iff, spots_append_eq_unmarked_iff, dotGap.spots_eq,
    spots_dot_eq_unmarked_iff, spots_append_eq_unmarked_iff, gap.spots_eq, turned,
    package.spots_eq_unmarked_iff, identifier.spots_eq_unmarked_iff,
    identifier.isUnqualified_behind_dot_iff clear gap noDot, List.append_assoc, List.cons_append,
    package.isUnqualified_before_dot_iff begins]
  simp

namespace Lexeme

variable {lexeme : Lexeme}

/-- A name may begin before the lexeme if it begins with a word, and the lexeme is
followed by no word and no dot if it would run on. -/
structure FitsBetween (lexeme : Lexeme) (before after : Text) : Prop where
  begins : lexeme.text.head?.any Text.isWord = true → mayBegin before = true
  ends : lexeme.runsOn = true → IsClear after

/-- Between texts in which it fits the lexeme is qualified as it should be exactly
if it is handled. -/
theorem spots_eq_marks_iff (fits : lexeme.FitsBetween before after) :
    spots before after lexeme.text = lexeme.marks ↔ lexeme.IsHandled := by
  obtain ⟨begins, ends⟩ := fits
  cases lexeme with
  | name identifier =>
      have starts := begins (by simpa [text, Identifier.text] using identifier.isWord_first)
      have seen : isCapital identifier.first = true → identifier.isExported = true :=
        Text.isUpper_of_isCapital
      rw [text, identifier.spots_eq, identifier.isUnqualified_eq starts (ends rfl), marks, IsHandled,
        List.cons.injEq, Prod.mk.injEq, Bool.eq_iff_iff]
      tauto
  | selected package dotGap gap identifier =>
      have starts := begins (by simpa [text, Identifier.text] using package.isWord_first)
      exact spots_selected_iff package identifier dotGap gap starts (ends rfl)
  | label identifier =>
      have starts := begins (by simpa [text, Identifier.text] using identifier.isWord_first)
      change spots before after identifier.text = unmarked identifier.text ↔ _
      rw [identifier.spots_eq_unmarked_iff, identifier.isUnqualified_eq starts (ends rfl),
        IsHandled]
  | rest identifier gap =>
      have starts := begins (by simpa [text, Identifier.text] using identifier.isWord_first)
      have dots (around : Text) : spots around after ['.', '.', '.'] = unmarked ['.', '.', '.'] :=
        spots_of_small (List.all_iff_forall_prop.mp (by decide))
      change spots before after (identifier.text ++ gap.text ++ ['.', '.', '.']) =
        unmarked (identifier.text ++ gap.text ++ ['.', '.', '.']) ↔ _
      rw [spots_append_eq_unmarked_iff, spots_append_eq_unmarked_iff, gap.spots_eq, dots,
        identifier.spots_eq_unmarked_iff, List.cons_append,
        identifier.isUnqualified_before_dot_iff starts]
      simp [IsHandled]
  | literal value =>
      change spots before after value.text = unmarked value.text ↔ _
      rw [value.spots_eq (ends rfl), spots_eq_unmarked_iff, IsHandled]
      simp only [List.append_nil]
  | word keyword =>
      exact iff_of_true (spots_of_small fun character member =>
        (isSmall_of_mem_wordSpelling character member).small) trivial
  | mark operator =>
      exact iff_of_true (spots_of_small fun character member =>
        (isMark_of_mem_spelling character member).small) trivial
  | receive gap =>
      have arrow : ∀ character ∈ ['<', '-'], isCapital character = false :=
        List.all_iff_forall_prop.mp (by decide)
      have word : ∀ character ∈ ['c', 'h', 'a', 'n'], isCapital character = false :=
        List.all_iff_forall_prop.mp (by decide)
      change spots before after (['<', '-'] ++ gap.text ++ ['c', 'h', 'a', 'n']) =
        unmarked (['<', '-'] ++ gap.text ++ ['c', 'h', 'a', 'n']) ↔ _
      rw [spots_append_eq_unmarked_iff, spots_append_eq_unmarked_iff, gap.spots_eq,
        spots_of_small arrow, spots_of_small word]
      simp [IsHandled]
  | lineEnd =>
      exact iff_of_true (spots_of_small (List.forall_mem_singleton.mpr (by decide))) trivial

theorem isProper_marks (fits : lexeme.FitsBetween before after) :
    IsProper before after lexeme.marks := by
  cases lexeme with
  | name identifier =>
      refine ⟨fun _ => ⟨identifier.isWord_first, ?_, ?_⟩, isProper_unmarked⟩
      · refine isWord_of_mayBegin (fits.begins ?_)
        simpa [text, Identifier.text] using identifier.isWord_first
      · rw [map_snd_unmarked]
        exact stop_append_of_isClear (fits.ends rfl) identifier.isWord_of_mem_rest
  | _ => exact isProper_unmarked

theorem mayBegin_of_not_runsOn (closed : lexeme.runsOn = false) :
    mayBegin (lexeme.text.reverse ++ before) = true := by
  cases lexeme with
  | rest identifier gap => simp [text, mayBegin]
  | mark operator =>
      have all : ∀ entry ∈ operators, entry.2 ≠ .dot →
          entry.1 = ['.', '.', '.'] ∨
            entry.1.getLast?.all (fun last => IsGap last) = true := by
        decide +kernel
      have noDot : operator ≠ .dot := by simpa [runsOn] using closed
      rcases all _ (spelling_mem_operators operator) noDot with dots | ends
      · rw [text, show spelling operator = _ from dots]
        rfl
      · obtain ⟨last, others, turned⟩ :=
          List.exists_cons_of_ne_nil (List.reverse_ne_nil_iff.mpr (spelling_ne_nil operator))
        have final : (spelling operator).getLast? = some last := by
          rw [← List.head?_reverse, turned]
          rfl
        rw [final, Option.all_some] at ends
        obtain ⟨separate, solid⟩ := of_decide_eq_true ends
        rw [text, turned, List.cons_append]
        unfold mayBegin
        split <;> simp_all
  | lineEnd => rfl
  | _ => cases closed

end Lexeme

/-! ## The marks of a line -/

variable {line : List Placed}

namespace Placed

/-- The marked characters of a lexeme behind white space. -/
def marks (placed : Placed) : List (Bool × Char) :=
  unmarked placed.gap.text ++ placed.lexeme.marks

theorem map_snd_marks (placed : Placed) : placed.marks.map Prod.snd = placed.text := by
  rw [marks, List.map_append, map_snd_unmarked, Lexeme.map_snd_marks, text]

end Placed

/-- Every lexeme of a line fits where it stands. -/
def Fit (before : Text) : List Placed → Prop
  | [] => True
  | placed :: rest =>
    placed.lexeme.FitsBetween (placed.gap.text.reverse ++ before) (rest.flatMap Placed.text) ∧
      Fit (placed.text.reverse ++ before) rest

/-- Lexemes that are kept apart fit where they stand. -/
theorem fit_of_areApart (apart : AreApart line)
    (begins : ∀ first ∈ line.head?, first.gap.text = [] →
      first.lexeme.text.head?.any Text.isWord = true → mayBegin before = true) :
    Fit before line := by
  induction line generalizing before with
  | nil => trivial
  | cons placed rest induction =>
      refine ⟨⟨fun word => ?_, isClear_of_apart apart⟩, induction apart.tail ?_⟩
      · by_cases none : placed.gap.text = []
        · rw [none]
          exact begins placed rfl none word
        · exact placed.gap.mayBegin_append none
      · intro next first none word
        obtain ⟨others, rfl⟩ := List.head?_eq_some_iff.mp first
        have closed : placed.lexeme.runsOn = false := by
          by_contra runsOn
          refine apart.rel none ⟨Bool.not_eq_false _ ▸ runsOn, ?_⟩
          cases head : next.lexeme.text.head? with
          | none => simp [head] at word
          | some character =>
              rw [head, Option.any_some] at word
              rw [Option.any_some, word, Bool.true_or]
        rw [Placed.text, List.reverse_append, List.append_assoc]
        exact Lexeme.mayBegin_of_not_runsOn closed

theorem map_snd_flatMap_marks (line : List Placed) :
    (line.flatMap Placed.marks).map Prod.snd = line.flatMap Placed.text := by
  rw [List.map_flatMap]
  exact List.flatMap_congr fun placed _ => placed.map_snd_marks

theorem isProper_flatMap_marks (fit : Fit before line) :
    IsProper before [] (line.flatMap Placed.marks) := by
  induction line generalizing before with
  | nil => trivial
  | cons placed rest induction =>
      obtain ⟨here, later⟩ := fit
      rw [List.flatMap_cons]
      refine isProper_append ?_ (by rw [placed.map_snd_marks]; exact induction later)
      rw [map_snd_flatMap_marks, List.append_nil]
      refine isProper_append isProper_unmarked ?_
      rw [map_snd_unmarked]
      exact Lexeme.isProper_marks here

/-- The text of a line is marked as it should be exactly if all of its lexemes are
handled. -/
theorem spots_line_iff (fit : Fit before line) :
    spots before [] (line.flatMap Placed.text) = line.flatMap Placed.marks ↔
      ∀ placed ∈ line, placed.lexeme.IsHandled := by
  induction line generalizing before with
  | nil => simp [spots]
  | cons placed rest induction =>
      obtain ⟨here, later⟩ := fit
      have first : spots before (rest.flatMap Placed.text) placed.text = placed.marks ↔
          placed.lexeme.IsHandled := by
        rw [Placed.text, spots_append, placed.gap.spots_eq, Placed.marks, List.append_cancel_left_eq]
        exact Lexeme.spots_eq_marks_iff here
      rw [List.flatMap_cons, List.flatMap_cons, spots_append, List.append_nil, List.forall_mem_cons,
        ← first, ← induction later]
      constructor
      · intro same
        refine List.append_inj same ?_
        rw [length_spots, ← placed.map_snd_marks, List.length_map]
      · rintro ⟨one, others⟩
        rw [one, others]

namespace Written

variable {part : Part}

/-- The expression as it is written in another package: every exported name of a
type or constant stands behind the qualifier. -/
def qualified (qualifier : Text) (written : Written part) : Text :=
  written.line.flatMap fun placed => placed.gap.text ++ placed.lexeme.qualified qualifier

theorem insertAt_marks (qualifier : Text) (written : Written part) :
    insertAt qualifier (written.line.flatMap Placed.marks) = written.qualified qualifier := by
  rw [insertAt, List.flatMap_assoc]
  refine List.flatMap_congr fun placed _ => ?_
  change insertAt qualifier (unmarked placed.gap.text ++ placed.lexeme.marks) = _
  rw [insertAt_append, insertAt_unmarked, Lexeme.insertAt_marks]

/-- Qualification prefixes exactly the exported names of types and constants that
are written without a package if and only if every lexeme is handled. -/
theorem qualifyType_text_eq_iff (qualifier : Identifier) (written : Written part) :
    qualifyType qualifier.text written.text = written.qualified qualifier.text ↔
      ∀ lexeme ∈ written.expression.lexemes, lexeme.IsHandled := by
  have fit : Fit [] written.line := fit_of_areApart written.apart fun _ _ _ _ => rfl
  have marked : qualifyType qualifier.text written.text =
      insertAt qualifier.text (spots [] [] (written.line.flatMap Placed.text)) := by
    rw [qualifyType, if_neg (by simp [Identifier.text]), qualifyFrom_eq_insertAt, Written.text]
  have lexemes : (∀ lexeme ∈ written.expression.lexemes, lexeme.IsHandled) ↔
      ∀ placed ∈ written.line, placed.lexeme.IsHandled := by
    rw [← written.spells, List.forall_mem_map]
  rw [marked, ← written.insertAt_marks, lexemes, ← spots_line_iff fit]
  constructor
  · refine eq_of_insertAt_eq qualifier.isWord_of_mem_text isProper_spots
      (isProper_flatMap_marks fit) ?_
    rw [map_snd_spots, map_snd_flatMap_marks]
  · intro same
    rw [same]

end Written

/-! ## A field and a letter that are mistaken -/

def stringName : Identifier :=
  ⟨'s', ['t', 'r', 'i', 'n', 'g'], by decide, List.all_iff_forall_prop.mp (by decide), by decide⟩

def nameLabel : Identifier :=
  ⟨'N', ['a', 'm', 'e'], by decide, List.all_iff_forall_prop.mp (by decide), by decide⟩

/-- A struct with one field, the name of which begins with a capital. -/
def recordType : Written .type where
  expression := .record (.full (.exact (.last (.untagged
    (.column (.last (.label nameLabel)) (.ofName (.bare (.plain stringName))))))))
  line :=
    [⟨.none, .word .structWord⟩, ⟨.none, .mark .openBrace⟩, ⟨.space, .label nameLabel⟩,
      ⟨.space, .name stringName⟩, ⟨.space, .mark .closeBrace⟩]
  spells := rfl
  flush := by decide
  apart := by decide

/-- The name of a field is qualified, which leaves no type. -/
theorem not_qualified_recordType :
    recordType.text = "struct{ Name string }" ∧
      recordType.qualified ['p'] = "struct{ Name string }" ∧
      qualifyType ['p'] recordType.text = "struct{ p.Name string }" := by
  decide +kernel

example : Text.isUpper 'É' = true ∧ qualifyType ['p'] "Éclair" = "Éclair" := by
  decide +kernel

end TypeSyntax

end Go

end Scaffold
