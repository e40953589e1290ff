import Mathlib.Data.List.Infix
import Scaffold.Contract.Qualification

/-!
# Where a text mentions a package

A text mentions a package where the name of the package and a dot stand and a
name may begin.  Behind a character that separates names every text mentions
what it mentions on its own, so a type mentions the same packages wherever it is
written.
-/

namespace Scaffold

namespace Qualification

/-- The character separates names from each other. -/
def IsGap (character : Char) : Prop :=
  Text.isWord character = false ∧ character ≠ '.'

instance (character : Char) : Decidable (IsGap character) :=
  inferInstanceAs (Decidable (_ ∧ _))

/-- No word goes on here, nor is it followed by a dot. -/
def IsClear (after : Text) : Prop :=
  ∀ character ∈ after.head?, IsGap character

theorem mayBegin_append_gap {gap : Char} (separates : IsGap gap) (near far : Text) :
    mayBegin (near ++ gap :: far) = mayBegin near := by
  obtain ⟨noWord, noDot⟩ := separates
  match near with
  | [] => simp [mayBegin, noWord, noDot]
  | [first] => by_cases dot : first = '.' <;> simp [mayBegin, dot, noDot]
  | [first, second] =>
      by_cases dot : first = '.' <;> by_cases dots : second = '.' <;>
        simp [mayBegin, dot, dots, noDot]
  | first :: second :: third :: rest =>
      by_cases dot : first = '.' <;> by_cases dots : second = '.' <;>
        by_cases all : third = '.' <;> simp [mayBegin, dot, dots, all]

/-- A mention stands behind a text after which a name may begin. -/
theorem refersFrom_iff {name : Text} {text : Text} :
    ∀ {before}, refersFrom name before text = true ↔
      ∃ left right, text = left ++ (name ++ '.' :: right) ∧
        mayBegin (left.reverse ++ before) = true := by
  induction text with
  | nil => intro before; simp [refersFrom]
  | cons character rest induction =>
      intro before
      rw [refersFrom, Bool.or_eq_true, Bool.and_eq_true, induction]
      constructor
      · rintro (⟨begins, here⟩ | ⟨left, right, rfl, begins⟩)
        · obtain ⟨right, split⟩ := List.isPrefixOf_iff_prefix.mp here
          exact ⟨[], right, by simp [← split], begins⟩
        · exact ⟨character :: left, right, rfl, by simpa using begins⟩
      · rintro ⟨left, right, split, begins⟩
        cases left with
        | nil =>
            refine .inl ⟨begins, List.isPrefixOf_iff_prefix.mpr ⟨right, ?_⟩⟩
            rw [split]
            simp
        | cons head left =>
            rw [List.cons_append, List.cons.injEq] at split
            exact .inr ⟨left, right, split.2, by rw [split.1]; simpa using begins⟩

/-- A piece stands in a text behind a gap. -/
def StandsIn (piece text : Text) : Prop :=
  ∃ gap, IsGap gap ∧ (gap :: piece) <:+: text

theorem StandsIn.mono {piece text longer : Text} (stands : StandsIn piece text)
    (inside : text <:+: longer) : StandsIn piece longer := by
  obtain ⟨gap, separates, part⟩ := stands
  exact ⟨gap, separates, part.trans inside⟩

theorem refersFrom_of_standsIn {name piece text : Text} (stands : StandsIn piece text)
    (mentioned : refersFrom name [] piece = true) : refersFrom name [] text = true := by
  obtain ⟨gap, separates, before, behind, rfl⟩ := stands
  obtain ⟨left, right, rfl, begins⟩ := refersFrom_iff.mp mentioned
  refine refersFrom_iff.mpr ⟨before ++ gap :: left, right ++ behind, by simp, ?_⟩
  rw [List.append_nil] at begins ⊢
  rw [List.reverse_append, List.reverse_cons, List.append_assoc, List.singleton_append,
    mayBegin_append_gap separates]
  exact begins

/-! ## Types in a row -/

theorem refersFrom_append {name piece : Text} (mentioned : refersFrom name [] piece = true)
    (behind : Text) : refersFrom name [] (piece ++ behind) = true := by
  obtain ⟨left, right, rfl, begins⟩ := refersFrom_iff.mp mentioned
  exact refersFrom_iff.mpr ⟨left, right ++ behind, by simp, begins⟩

/-- A name without gaps is not mentioned across a gap. -/
theorem refersFrom_of_append_gap {name piece rest : Text} {gap : Char} (separates : IsGap gap)
    (whole : gap ∉ name) (mentioned : refersFrom name [] (piece ++ gap :: rest) = true) :
    refersFrom name [] piece = true ∨ refersFrom name [] rest = true := by
  obtain ⟨left, right, split, begins⟩ := refersFrom_iff.mp mentioned
  have together : gap ∉ name ++ ['.'] := by
    rw [List.mem_append, List.mem_singleton, not_or]
    exact ⟨whole, separates.2⟩
  rw [List.append_nil] at begins
  rcases List.append_eq_append_iff.mp split with ⟨middle, rfl, later⟩ | ⟨middle, rfl, later⟩
  · -- The mention begins in or behind the gap.
    cases middle with
    | nil =>
        cases name with
        | nil =>
            rw [List.nil_append, List.nil_append, List.cons.injEq] at later
            exact absurd later.1 separates.2
        | cons first name =>
            rw [List.nil_append, List.cons_append, List.cons.injEq] at later
            exact absurd (later.1 ▸ List.mem_cons_self) whole
    | cons head middle =>
        rw [List.cons_append, List.cons.injEq] at later
        rw [List.reverse_append, List.reverse_cons, List.append_assoc, List.singleton_append,
          ← later.1, mayBegin_append_gap separates] at begins
        exact .inr (refersFrom_iff.mpr ⟨middle, right, later.2, by rwa [List.append_nil]⟩)
  · -- The mention begins in the piece, so it ends there.
    have rejoined : (name ++ ['.']) ++ right = middle ++ gap :: rest := by simpa using later
    rcases List.append_eq_append_iff.mp rejoined with ⟨added, rfl, _⟩ | ⟨added, cut, after⟩
    · exact .inl (refersFrom_iff.mpr ⟨left, added, by simp, by rwa [List.append_nil]⟩)
    · cases added with
      | nil =>
          rw [List.append_nil] at cut
          exact .inl (refersFrom_iff.mpr ⟨left, [], by simp [← cut], by rwa [List.append_nil]⟩)
      | cons head added =>
          rw [List.cons_append, List.cons.injEq] at after
          refine absurd ?_ together
          rw [cut, after.1]
          exact List.mem_append_right _ List.mem_cons_self

theorem exists_piece_of_refersFrom_join {name : Text} {gap : Char} (separates : IsGap gap)
    (whole : gap ∉ name) :
    ∀ {pieces : List Text}, refersFrom name [] (Text.join [gap] pieces) = true →
      ∃ piece ∈ pieces, refersFrom name [] piece = true
  | [], mentioned => by simp [Text.join, refersFrom] at mentioned
  | [piece], mentioned => ⟨piece, List.mem_singleton_self piece, mentioned⟩
  | piece :: next :: pieces, mentioned => by
      rw [Text.join, List.append_assoc, List.singleton_append] at mentioned
      rcases refersFrom_of_append_gap separates whole mentioned with here | later
      · exact ⟨piece, List.mem_cons_self, here⟩
      · obtain ⟨other, member, there⟩ := exists_piece_of_refersFrom_join separates whole later
        exact ⟨other, List.mem_cons_of_mem piece member, there⟩

theorem refersFrom_join_of_mem {name piece : Text} {gap : Char} (separates : IsGap gap)
    (mentioned : refersFrom name [] piece = true) :
    ∀ {pieces : List Text}, piece ∈ pieces →
      refersFrom name [] (Text.join [gap] pieces) = true
  | [], member => absurd member List.not_mem_nil
  | [only], member => by rwa [Text.join, ← List.mem_singleton.mp member]
  | first :: next :: pieces, member => by
      rw [Text.join, List.append_assoc, List.singleton_append]
      rcases List.mem_cons.mp member with rfl | later
      · exact refersFrom_append mentioned _
      · have rest := refersFrom_join_of_mem separates mentioned later
        have stands : StandsIn (Text.join [gap] (next :: pieces))
            (first ++ gap :: Text.join [gap] (next :: pieces)) :=
          ⟨gap, separates, first, [], by simp⟩
        exact refersFrom_of_standsIn stands rest

/-! ## Qualified types -/

theorem refersFrom_qualifyFrom {qualifier text : Text} :
    ∀ {before}, qualifyFrom qualifier before text ≠ text →
      refersFrom qualifier before (qualifyFrom qualifier before text) = true := by
  induction text with
  | nil => exact fun changed => absurd rfl changed
  | cons character rest induction =>
      intro before changed
      rw [qualifyFrom] at changed ⊢
      split
      · rename_i inserted
        rw [isUnqualified, Bool.and_eq_true, Bool.and_eq_true] at inserted
        exact refersFrom_iff.mpr
          ⟨[], character :: qualifyFrom qualifier (character :: before) rest, by simp,
            inserted.1.2⟩
      · rename_i kept
        rw [if_neg kept, List.nil_append] at changed
        have later := induction fun same => changed (by rw [same])
        rw [List.nil_append, refersFrom, later, Bool.or_true]

/-! ## Names that can be mentioned -/

/-- The name can be mentioned: it is neither empty nor that of a blank or of a
dot import. -/
structure IsMentionable (name : Text) : Prop where
  named : name ≠ []
  visible : name ≠ ['_']
  separate : name ≠ ['.']

theorem refersTo_iff {types name : Text} :
    refersTo types name = true ↔ IsMentionable name ∧ refersFrom name [] types = true := by
  simp only [refersTo, Bool.and_eq_true, Bool.not_eq_true', List.isEmpty_eq_false_iff, bne_iff_ne]
  exact ⟨fun ⟨⟨⟨named, visible⟩, separate⟩, mentioned⟩ => ⟨⟨named, visible, separate⟩, mentioned⟩,
    fun ⟨⟨named, visible, separate⟩, mentioned⟩ => ⟨⟨⟨named, visible⟩, separate⟩, mentioned⟩⟩

theorem refersTo_of_standsIn {name text : Text} (stands : StandsIn (name ++ ['.']) text)
    (mentionable : IsMentionable name) : refersTo text name = true := by
  have alone : refersFrom name [] (name ++ ['.']) = true :=
    refersFrom_iff.mpr ⟨[], [], by simp, rfl⟩
  exact refersTo_iff.mpr ⟨mentionable, refersFrom_of_standsIn stands alone⟩

end Qualification

namespace Method

open Qualification (IsGap)

theorem exists_type_of_refersTo {method : Method} {name : Text} (whole : ' ' ∉ name)
    (mentioned : Qualification.refersTo method.types name = true) :
    ∃ parameter ∈ method.parameters ++ method.results,
      Qualification.refersFrom name [] parameter.type = true := by
  have blank : IsGap ' ' := by decide
  obtain ⟨type, listed, there⟩ := Qualification.exists_piece_of_refersFrom_join blank whole
    (Qualification.refersTo_iff.mp mentioned).2
  obtain ⟨parameter, member, rfl⟩ := List.mem_map.mp listed
  exact ⟨parameter, member, there⟩

/-- A method of which a type changes when it is qualified mentions the
qualifier. -/
theorem refersTo_qualified {method : Method} {qualifier : Text}
    (mentionable : Qualification.IsMentionable qualifier) {parameter : Parameter}
    (member : parameter ∈ method.parameters ++ method.results)
    (changed : Qualification.qualifyType qualifier parameter.type ≠ parameter.type) :
    Qualification.refersTo (method.qualified qualifier).types qualifier = true := by
  have blank : IsGap ' ' := by decide
  have there : Qualification.refersFrom qualifier []
      (Qualification.qualifyType qualifier parameter.type) = true := by
    unfold Qualification.qualifyType at changed ⊢
    split
    · rename_i empty
      rw [if_pos empty] at changed
      exact absurd rfl changed
    · rename_i named
      rw [if_neg named] at changed
      exact Qualification.refersFrom_qualifyFrom changed
  have listed : Qualification.qualifyType qualifier parameter.type ∈
      ((method.qualified qualifier).parameters ++ (method.qualified qualifier).results).map
        Parameter.type := by
    refine List.mem_map.mpr ⟨{ parameter with
      type := Qualification.qualifyType qualifier parameter.type }, ?_, rfl⟩
    rw [Method.qualified, Qualification.qualifyAll, Qualification.qualifyAll, ← List.map_append]
    exact List.mem_map_of_mem member
  exact Qualification.refersTo_iff.mpr
    ⟨mentionable, Qualification.refersFrom_join_of_mem blank there listed⟩

end Method

end Scaffold
