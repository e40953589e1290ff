import Scaffold.Proofs.Contract.QualifiedTypes
import Scaffold.Proofs.Module.Resolver

/-!
# Where qualifiers are inserted

A qualifier is inserted before every exported word that neither stands behind a dot
nor before one.  Afterwards every exported word does, the inserted ones included, so
qualifying again changes nothing.
-/

namespace Scaffold

namespace Qualification

variable {qualifier before word after text : Text}

/-! ## Exported words -/

/-- Between two texts stands a whole word that begins with a capital letter of
ASCII. -/
structure IsExportedWord (before word after : Text) : Prop where
  capital : word.head?.any isCapital = true
  letters : ∀ character ∈ word, Text.isWord character = true
  begins : ∀ character ∈ before.getLast?, Text.isWord character = false
  ends : ∀ character ∈ after.head?, Text.isWord character = false

/-- A dot follows at once, or a dot that does not end an ellipsis stands directly
before. -/
def IsSelected (before after : Text) : Prop :=
  after.head? = some '.' ∨ ['.'] <:+ before ∧ ¬ ['.', '.', '.'] <:+ before

/-- The result is the text with a qualifier inserted before each exported word that
is not selected.  All its own exported words are selected, and it stays as it is
when it is qualified again. -/
structure IsQualified (qualifier text result : Text) : Prop where
  inserted : ∃ line, line.map Prod.snd = text ∧ insertAt qualifier line = result ∧
    ∀ left mark character right, line = left ++ (mark, character) :: right →
      (mark = true ↔ ∃ word after, character :: right.map Prod.snd = word ++ after ∧
        IsExportedWord (left.map Prod.snd) word after ∧
        ¬ IsSelected (left.map Prod.snd) after)
  complete : ∀ before word after, result = before ++ word ++ after →
    IsExportedWord before word after → IsSelected before after
  settled : qualifyType qualifier result = result

/-- A name may begin behind a text that ends neither in a word nor in a dot that
belongs to no ellipsis. -/
theorem mayBegin_reverse_iff :
    mayBegin before.reverse = true ↔
      (∀ character ∈ before.getLast?, Text.isWord character = false) ∧
        (['.'] <:+ before → ['.', '.', '.'] <:+ before) := by
  rw [← List.head?_reverse, ← List.reverse_prefix, ← List.reverse_prefix]
  generalize before.reverse = turned
  have dot : Text.isWord '.' = false := by decide
  have turn (character : Char) : ('.' = character) = (character = '.') := propext eq_comm
  match turned with
  | [] => simp [mayBegin]
  | [first] =>
      by_cases one : first = '.' <;> simp [mayBegin, one, turn, dot]
  | [first, second] =>
      by_cases one : first = '.' <;> by_cases two : second = '.' <;>
        simp [mayBegin, one, two, turn, dot]
  | first :: second :: third :: rest =>
      by_cases one : first = '.' <;> by_cases two : second = '.' <;>
        by_cases three : third = '.' <;> simp [mayBegin, one, two, three, turn, dot]

theorem dropWhile_isWord_append (letters : ∀ character ∈ word, Text.isWord character = true)
    (ends : ∀ character ∈ after.head?, Text.isWord character = false) :
    (word ++ after).dropWhile Text.isWord = after := by
  rw [List.dropWhile_append_of_pos letters]
  cases after with
  | nil => rfl
  | cons character rest => rw [List.dropWhile_cons_of_neg (by simp [ends character rfl])]

/-- A qualifier is missing before the exported words that are not selected. -/
theorem isUnqualified_reverse_iff :
    isUnqualified before.reverse text = true ↔
      ∃ word after, text = word ++ after ∧ IsExportedWord before word after ∧
        ¬ IsSelected before after := by
  constructor
  · intro missing
    cases text with
    | nil => cases missing
    | cons character rest =>
        rw [isUnqualified, Bool.and_eq_true, Bool.and_eq_true, mayBegin_reverse_iff,
          bne_iff_ne] at missing
        obtain ⟨⟨capital, separate, dots⟩, noDot⟩ := missing
        refine ⟨character :: rest.takeWhile Text.isWord, rest.dropWhile Text.isWord, ?_,
          ⟨capital, ?_, separate, ?_⟩, ?_⟩
        · rw [List.cons_append, List.takeWhile_append_dropWhile]
        · exact List.forall_mem_cons.mpr
            ⟨isWord_of_isCapital capital, fun _ => List.mem_takeWhile_imp⟩
        · intro next first
          have ends := List.head?_dropWhile_not Text.isWord rest
          rwa [Option.mem_def.mp first] at ends
        · rintro (follows | ⟨behind, apart⟩)
          · exact noDot follows
          · exact apart (dots behind)
  · rintro ⟨word, after, rfl, ⟨capital, letters, separate, ends⟩, free⟩
    cases word with
    | nil => cases capital
    | cons character word =>
        rw [IsSelected, not_or, not_and, not_not] at free
        rw [List.cons_append, isUnqualified, Bool.and_eq_true, Bool.and_eq_true,
          mayBegin_reverse_iff, bne_iff_ne,
          dropWhile_isWord_append (List.forall_mem_cons.mp letters).2 ends]
        exact ⟨⟨capital, separate, free.2⟩, free.1⟩

theorem isSelected_of_spots (bare : spots [] [] text = unmarked text)
    (split : text = before ++ word ++ after) (exported : IsExportedWord before word after) :
    IsSelected before after := by
  have none := spots_eq_unmarked_iff.mp bare before (word ++ after)
    (split.trans (List.append_assoc _ _ _))
  rw [List.append_nil] at none
  by_contra free
  have missing := isUnqualified_reverse_iff.mpr ⟨word, after, rfl, exported, free⟩
  exact absurd (missing.symm.trans none) (by decide)

/-! ## The marks of a text -/

theorem mark_eq_of_spots {left right : List (Bool × Char)} {mark : Bool} {character : Char}
    (line : spots before after text = left ++ (mark, character) :: right) :
    mark = isUnqualified ((left.map Prod.snd).reverse ++ before)
      (character :: (right.map Prod.snd ++ after)) := by
  have whole : text = left.map Prod.snd ++ character :: right.map Prod.snd := by
    rw [← @map_snd_spots before after text, line, List.map_append, List.map_cons]
  rw [whole, spots_append] at line
  obtain ⟨-, later⟩ := List.append_inj line (by simp)
  rw [spots] at later
  exact (congrArg Prod.fst (List.cons.inj later).1).symm

/-! ## Texts that have been qualified -/

theorem isUnqualified_qualifyFrom {character : Char} {shown rest : Text}
    (alike : mayBegin shown = mayBegin before) :
    isUnqualified shown (character :: qualifyFrom qualifier (character :: before) rest) =
      isUnqualified before (character :: rest) := by
  rw [isUnqualified, isUnqualified, alike]
  cases capital : isCapital character with
  | false => rfl
  | true =>
      have stops : stop (qualifyFrom qualifier (character :: before) rest) = stop rest := by
        rw [qualifyFrom_eq_insertAt, stop_insertAt (isWord_of_isCapital capital) isProper_spots,
          map_snd_spots]
      rw [stop, stop] at stops
      rw [stops]

theorem spots_before_dot (letters : ∀ character ∈ word, Text.isWord character = true)
    (behind : Text) : spots before ('.' :: behind) word = unmarked word := by
  cases word with
  | nil => rfl
  | cons first others =>
      obtain ⟨here, later⟩ := List.forall_mem_cons.mp letters
      have separate : Text.isWord '.' = false := by decide
      have selected : isUnqualified before (first :: (others ++ '.' :: behind)) = false := by
        rw [isUnqualified, dropWhile_isWord_append later (by simp [separate])]
        simp
      rw [spots, selected, spots_behind_word here later]
      rfl

theorem mayBegin_selected (named : word ≠ [])
    (letters : ∀ character ∈ word, Text.isWord character = true) :
    mayBegin ('.' :: (word.reverse ++ before)) = false := by
  obtain ⟨last, rest, turned⟩ := List.exists_cons_of_ne_nil (List.reverse_ne_nil_iff.mpr named)
  have noDot : last ≠ '.' := by
    rintro rfl
    have inside : '.' ∈ word := List.mem_reverse.mp (turned ▸ List.mem_cons_self)
    exact absurd (letters '.' inside) (by decide)
  rw [turned]
  simp [mayBegin, noDot]

/-- Nothing is left to be qualified, where what is shown so far ends as the text
before does. -/
theorem spots_qualifyFrom (named : qualifier ≠ [])
    (letters : ∀ character ∈ qualifier, Text.isWord character = true) {shown : Text}
    (alike : ∀ front, mayBegin (front ++ shown) = mayBegin (front ++ before)) :
    spots shown [] (qualifyFrom qualifier before text) =
      unmarked (qualifyFrom qualifier before text) := by
  induction text generalizing before shown with
  | nil => rfl
  | cons character rest induction =>
      rw [qualifyFrom]
      split
      · rename_i missing
        have solid : character ≠ '.' := by
          rintro rfl
          cases missing
        have later := @induction (character :: before)
          (character :: '.' :: (qualifier.reverse ++ shown)) fun front =>
            (mayBegin_append_cons solid front).trans (mayBegin_append_cons solid front).symm
        rw [List.append_assoc, List.singleton_append, spots_append_eq_unmarked_iff,
          Go.TypeSyntax.spots_dot_eq_unmarked_iff, spots,
          isUnqualified_of_not_mayBegin (mayBegin_selected named letters), later]
        exact ⟨spots_before_dot letters _, rfl⟩
      · rename_i present
        have here : mayBegin shown = mayBegin before := alike []
        have later := @induction (character :: before) (character :: shown) fun front => by
          simpa using alike (front ++ [character])
        rw [List.nil_append, spots, List.append_nil, isUnqualified_qualifyFrom here,
          eq_false_of_ne_true present, later]
        rfl

/-- A type in which a name spelled with letters, digits and low lines has been
inserted before every exported word that neither follows a dot nor is followed by
one. -/
theorem isQualified_qualifyType (proper : Go.IsWord qualifier) (text : Text) :
    IsQualified qualifier text (qualifyType qualifier text) := by
  have letters : ∀ character ∈ qualifier, Text.isWord character = true := fun character member =>
    Go.isWord_of_continuesName (proper.word character member)
  have opened (text : Text) : qualifyType qualifier text = qualifyFrom qualifier [] text :=
    if_neg (by simpa using proper.named)
  have bare : spots [] [] (qualifyFrom qualifier [] text) =
      unmarked (qualifyFrom qualifier [] text) :=
    spots_qualifyFrom proper.named letters fun _ => rfl
  rw [opened]
  refine ⟨⟨spots [] [] text, map_snd_spots, qualifyFrom_eq_insertAt.symm, ?_⟩, ?_, ?_⟩
  · intro left mark character right line
    have mark := mark_eq_of_spots line
    rw [List.append_nil, List.append_nil] at mark
    rw [mark, isUnqualified_reverse_iff]
  · exact fun before word after => isSelected_of_spots bare
  · rw [opened, qualifyFrom_eq_insertAt, bare, insertAt_unmarked]

/-- The name of a package may itself begin with a capital. -/
theorem isQualified_qualifyType_capital :
    Go.IsWord "Api" ∧
      IsQualified "Api" "map[Key]func(...Value, io.Reader) Éclair"
        "map[Api.Key]func(...Api.Value, io.Reader) Éclair" := by
  have proper : Go.IsWord "Api" :=
    Go.IsQualifier.isWord (Go.IsPackageName.isQualifier (by decide +kernel))
  have written : qualifyType "Api" "map[Key]func(...Value, io.Reader) Éclair" =
      "map[Api.Key]func(...Api.Value, io.Reader) Éclair" := by
    decide +kernel
  have qualified := isQualified_qualifyType proper "map[Key]func(...Value, io.Reader) Éclair"
  rw [written] at qualified
  exact ⟨proper, qualified⟩

end Qualification

end Scaffold
