import Mathlib.Data.List.Sort
import Scaffold.Proofs.Contract.Entries

/-!
# Where a text is cut

Joined again the pieces of a text are the text, so they are told by the places
between them.  A text is cut at a character wherever this stands with as many
opening as closing brackets up to and including itself.  Brackets of all kinds are
counted together: where more are closed than opened there is no cut, and a
separator that is a bracket counts for itself.
-/

namespace Scaffold

namespace Text

theorem join_cons {pieces : List Text} (some : pieces ≠ []) (separator piece : Text) :
    join separator (piece :: pieces) = piece ++ (separator ++ join separator pieces) := by
  obtain ⟨next, others, rfl⟩ := List.exists_cons_of_ne_nil some
  rw [join, List.append_assoc]

end Text

namespace Signature

/-! ## Brackets -/

/-- How many brackets a text opens. -/
def openings (text : Text) : Nat :=
  text.countP ['(', '[', '\x7b'].contains

/-- How many brackets a text closes. -/
def closings (text : Text) : Nat :=
  text.countP [')', ']', '\x7d'].contains

theorem not_closing_of_opening {character : Char}
    (opening : ['(', '[', '\x7b'].contains character = true) :
    ¬ [')', ']', '\x7d'].contains character = true := by
  have none : ∀ bracket ∈ ['(', '[', '\x7b'], ¬ [')', ']', '\x7d'].contains bracket = true :=
    List.all_iff_forall_prop.mp (by decide)
  exact none character (List.contains_iff_mem.mp opening)

theorem depth_eq (text : Text) : depth text = openings text - closings text := by
  induction text with
  | nil => rfl
  | cons character rest induction =>
      rw [depth_cons, induction]
      simp only [openings, closings, List.countP_cons, depthChange]
      split
      · rename_i opening
        rw [if_neg (not_closing_of_opening opening)]
        omega
      · split <;> omega

theorem depth_eq_zero_iff {text : Text} : depth text = 0 ↔ openings text = closings text := by
  rw [depth_eq]
  omega

/-! ## Cuts -/

/-- The separator stands at a place of a text, with as many opening as closing
brackets up to and including itself. -/
structure IsCut (separator : Char) (text : Text) (place : Nat) : Prop where
  stands : text[place]? = some separator
  level : openings (text.take (place + 1)) = closings (text.take (place + 1))

/-- Where the separators stand between joined pieces, the first of which begins at
a place. -/
def seamsFrom (start : Nat) : List Text → List Nat
  | [] | [_] => []
  | piece :: next :: rest =>
    (start + piece.length) :: seamsFrom (start + piece.length + 1) (next :: rest)

/-- Where the separators stand between joined pieces. -/
def seams (pieces : List Text) : List Nat :=
  seamsFrom 0 pieces

variable {separator : Char} {start : Nat} {text : Text} {pieces others : List Text}

theorem splitFrom_ne_nil (separator : Text) (text : Text) :
    ∀ level current, splitFrom separator level current text ≠ [] := by
  induction text with
  | nil => exact fun _ _ => List.cons_ne_nil _ _
  | cons character rest induction =>
      intro level current
      rw [splitFrom]
      split
      · exact List.cons_ne_nil _ _
      · exact induction _ _

theorem join_splitFrom (separator : Text) (text : Text) :
    ∀ level current, Text.join separator (splitFrom separator level current text) =
      current.reverse ++ text := by
  induction text with
  | nil => exact fun _ current => (List.append_nil current.reverse).symm
  | cons character rest induction =>
      intro level current
      rw [splitFrom]
      split
      · rename_i cut
        rw [Text.join_cons (splitFrom_ne_nil separator rest _ _), induction, ← cut.1]
        rfl
      · rw [induction, List.reverse_cons, List.append_assoc, List.singleton_append]

theorem seamsFrom_cons (some : pieces ≠ []) (piece : Text) :
    seamsFrom start (piece :: pieces) =
      (start + piece.length) :: seamsFrom (start + piece.length + 1) pieces := by
  obtain ⟨next, rest, rfl⟩ := List.exists_cons_of_ne_nil some
  rfl

/-- Cutting goes on where it has come to a level and begun a piece. -/
theorem mem_seamsFrom_splitFrom (separator : Char) (text : Text) :
    ∀ {start level current place},
      place ∈ seamsFrom start (splitFrom [separator] level current text) ↔
        ∃ offset, place = start + current.length + offset ∧ text[offset]? = some separator ∧
          level + depth (text.take (offset + 1)) = 0 := by
  induction text with
  | nil =>
      intro start level current place
      simp [splitFrom, seamsFrom]
  | cons character rest induction =>
      intro start level current place
      rw [← Nat.or_exists_add_one, splitFrom]
      simp only [List.getElem?_cons_zero, List.getElem?_cons_succ, List.take_succ_cons,
        List.take_zero, depth_cons, depth_nil, Int.add_zero, Nat.add_zero, Option.some.injEq,
        ← Int.add_assoc]
      split
      · rename_i cut
        obtain ⟨same, outside⟩ := cut
        rw [seamsFrom_cons (splitFrom_ne_nil _ _ _ _), List.mem_cons, induction,
          List.length_reverse, List.length_nil, Nat.add_zero]
        have here : character = separator := (List.cons.inj same).1
        simp only [here, ← outside, and_true, Nat.add_assoc, Nat.add_comm 1]
      · rename_i goesOn
        have other : ¬ (character = separator ∧ level + depthChange character = 0) := by
          simpa using goesOn
        rw [induction, List.length_cons]
        simp only [other, and_false, false_or, Nat.add_assoc, Nat.add_comm 1]

theorem mem_seams_splitTopLevel {place : Nat} :
    place ∈ seams (splitTopLevel [separator] text) ↔ IsCut separator text place := by
  rw [seams, splitTopLevel, mem_seamsFrom_splitFrom]
  simp only [List.length_nil, Nat.zero_add, Int.zero_add, exists_eq_left', depth_eq_zero_iff]
  exact ⟨fun cut => ⟨cut.1, cut.2⟩, fun cut => ⟨cut.stands, cut.level⟩⟩

/-! ## Pieces told by the places between them -/

theorem pairwise_seamsFrom (pieces : List Text) :
    ∀ start, (∀ place ∈ seamsFrom start pieces, start ≤ place) ∧
      (seamsFrom start pieces).Pairwise (· < ·) := by
  induction pieces with
  | nil => exact fun _ => ⟨nofun, .nil⟩
  | cons piece rest induction =>
      intro start
      cases rest with
      | nil => exact ⟨nofun, .nil⟩
      | cons next others =>
          obtain ⟨behind, ascends⟩ := induction (start + piece.length + 1)
          refine ⟨List.forall_mem_cons.mpr ⟨by omega, fun place member => ?_⟩,
            .cons (fun place member => ?_) ascends⟩
          · have := behind place member
            omega
          · exact behind place member

theorem eq_of_seamsFrom (some : pieces ≠ []) (something : others ≠ [])
    (joined : Text.join [separator] pieces = Text.join [separator] others)
    (same : seamsFrom start pieces = seamsFrom start others) : pieces = others := by
  induction pieces generalizing start others with
  | nil => exact absurd rfl some
  | cons piece rest induction =>
      obtain ⟨other, more, rfl⟩ := List.exists_cons_of_ne_nil something
      cases rest with
      | nil =>
          cases more with
          | nil => exact congrArg (fun text => [text]) joined
          | cons next more => cases same
      | cons next rest =>
          cases more with
          | nil => cases same
          | cons follower more =>
              obtain ⟨here, later⟩ := List.cons.inj same
              have length : piece.length = other.length := by omega
              rw [Text.join_cons (List.cons_ne_nil _ _), Text.join_cons (List.cons_ne_nil _ _)]
                at joined
              obtain ⟨rfl, behind⟩ := List.append_inj joined length
              have rest := induction (List.cons_ne_nil _ _) (List.cons_ne_nil _ _)
                (List.append_cancel_left behind) later
              rw [rest]

theorem splitTopLevel_eq_iff :
    splitTopLevel [separator] text = pieces ↔
      pieces ≠ [] ∧ Text.join [separator] pieces = text ∧
        ∀ place, place ∈ seams pieces ↔ IsCut separator text place := by
  have joined : Text.join [separator] (splitTopLevel [separator] text) = text :=
    join_splitFrom [separator] text 0 []
  constructor
  · rintro rfl
    exact ⟨splitFrom_ne_nil _ _ _ _, joined, fun _ => mem_seams_splitTopLevel⟩
  · rintro ⟨some, whole, cuts⟩
    have same : seams (splitTopLevel [separator] text) = seams pieces :=
      (pairwise_seamsFrom _ 0).2.eq_of_mem_iff (pairwise_seamsFrom _ 0).2 fun place =>
        mem_seams_splitTopLevel.trans (cuts place).symm
    exact eq_of_seamsFrom (splitFrom_ne_nil _ _ _ _) some (joined.trans whole.symm) same

/-! ## Pieces that are found again -/

/-- A text that closes as many brackets as it opens and has no comma at which it is
cut. -/
structure IsPiece (text : Text) : Prop where
  level : openings text = closings text
  uncut : ∀ place, ¬ IsCut ',' text place

instance (separator : Char) (text : Text) (place : Nat) : Decidable (IsCut separator text place) :=
  decidable_of_iff (text[place]? = some separator ∧
      openings (text.take (place + 1)) = closings (text.take (place + 1)))
    ⟨fun ⟨stands, level⟩ => ⟨stands, level⟩, fun cut => ⟨cut.stands, cut.level⟩⟩

theorem IsCut.lt_length {place : Nat} (cut : IsCut separator text place) : place < text.length :=
  (List.getElem?_eq_some_iff.mp cut.stands).1

instance (text : Text) : Decidable (IsPiece text) :=
  decidable_of_iff (openings text = closings text ∧ ∀ place < text.length, ¬ IsCut ',' text place)
    ⟨fun ⟨level, uncut⟩ => ⟨level, fun place cut => uncut place cut.lt_length cut⟩,
      fun isPiece => ⟨isPiece.level, fun place _ => isPiece.uncut place⟩⟩

theorem IsPiece.isQuiet (isPiece : IsPiece text) : IsQuiet 0 text := by
  rintro left right rfl level
  have upTo : (left ++ ',' :: right).take (left.length + 1) = left ++ [','] := by
    rw [List.take_append, List.take_of_length_le (Nat.le_succ _), Nat.add_sub_cancel_left]
    rfl
  refine isPiece.uncut left.length ⟨by simp, ?_⟩
  rw [upTo, ← depth_eq_zero_iff, depth_append, ← Int.zero_add (depth left), level]
  rfl

theorem splitTopLevel_join (some : pieces ≠ []) (all : ∀ piece ∈ pieces, IsPiece piece) :
    splitTopLevel [','] (Text.join [','] pieces) = pieces := by
  induction pieces with
  | nil => exact absurd rfl some
  | cons piece rest induction =>
      obtain ⟨here, later⟩ := List.forall_mem_cons.mp all
      cases rest with
      | nil => exact splitFrom_of_isQuiet here.isQuiet
      | cons next others =>
          have level : 0 + depth piece = 0 := by
            rw [Int.zero_add, depth_eq_zero_iff, here.level]
          rw [Text.join_cons (List.cons_ne_nil _ _), List.singleton_append, splitTopLevel,
            splitFrom_append_comma here.isQuiet level, induction (List.cons_ne_nil _ _) later]
          rfl

/-- The pieces joined by the separator are the text.  For a single character they are
the only pieces that make up the text and have between them just the places at which
as many brackets are opened as closed, up to and including the separator there.  So
one or more pieces without such commas, with as many opening as closing brackets each,
are the pieces of the text in which they are joined by commas. -/
theorem splitTopLevel_exact :
    (∀ separator text : Text, Text.join separator (splitTopLevel separator text) = text) ∧
    (∀ (separator : Char) (text : Text) (pieces : List Text),
      splitTopLevel [separator] text = pieces ↔
        pieces ≠ [] ∧ Text.join [separator] pieces = text ∧
          ∀ place, place ∈ seams pieces ↔ IsCut separator text place) ∧
    ∀ pieces : List Text, pieces ≠ [] → (∀ piece ∈ pieces, IsPiece piece) →
      splitTopLevel [','] (Text.join [','] pieces) = pieces :=
  ⟨fun separator text => join_splitFrom separator text 0 [],
    fun _ _ _ => splitTopLevel_eq_iff, fun _ => splitTopLevel_join⟩

/-- A comma inside of brackets, one where a bracket is closed that was not opened,
and a piece without characters. -/
def nestedPieces : List Text :=
  ["f func(a, b int)", "),(", ""]

theorem splitTopLevel_exact_nested :
    nestedPieces ≠ [] ∧ (∀ piece ∈ nestedPieces, IsPiece piece) ∧
      splitTopLevel [','] (Text.join [','] nestedPieces) = nestedPieces := by
  have some : nestedPieces ≠ [] := List.cons_ne_nil _ _
  have all : ∀ piece ∈ nestedPieces, IsPiece piece := by
    decide +kernel
  exact ⟨some, all, splitTopLevel_exact.2.2 nestedPieces some all⟩

/-- No pieces at all make up the text without characters, which is a single piece. -/
theorem splitTopLevel_join_none :
    (∀ piece ∈ ([] : List Text), IsPiece piece) ∧
      splitTopLevel [','] (Text.join [','] []) ≠ [] := by
  decide

end Signature

end Scaffold
