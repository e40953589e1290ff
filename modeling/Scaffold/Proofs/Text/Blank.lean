import Mathlib.Data.List.TakeWhile
import Scaffold.Text.Blank

/-!
# Blanks before texts

Trimming drops the blanks that a text begins with, up to its first other
character.
-/

namespace Scaffold

namespace Text

theorem trimStart_append_of_blank {lead : Text} {first : Char}
    (blank : ∀ character ∈ lead, isBlank character = true) (solid : isBlank first = false)
    (others : Text) : trimStart (lead ++ first :: others) = first :: others := by
  rw [trimStart, List.dropWhile_append_of_pos blank]
  exact List.dropWhile_cons_of_neg (by simp [solid])

theorem exists_of_dropWhile_isBlank {text : Text} (some : text.dropWhile isBlank ≠ []) :
    ∃ first others, text.dropWhile isBlank = first :: others ∧ isBlank first = false := by
  obtain ⟨first, others, split⟩ := List.exists_cons_of_ne_nil some
  have solid := List.head?_dropWhile_not isBlank text
  rw [split] at solid
  exact ⟨first, others, split, solid⟩

theorem exists_blanks (text : Text) :
    ∃ blanks, (∀ character ∈ blanks, isBlank character = true) ∧
      text = blanks ++ trimStart text :=
  ⟨text.takeWhile isBlank, fun _ member => List.mem_takeWhile_imp member,
    List.takeWhile_append_dropWhile.symm⟩

theorem trimStart_eq_nil_iff {text : Text} :
    trimStart text = [] ↔ ∀ character ∈ text, isBlank character = true :=
  List.dropWhile_eq_nil_iff

theorem trim_eq_nil_iff {text : Text} :
    trim text = [] ↔ ∀ character ∈ text, isBlank character = true := by
  rw [← trimStart_eq_nil_iff, trim, trimEnd, List.reverse_eq_nil_iff, List.dropWhile_eq_nil_iff]
  constructor
  · intro blank
    cases kept : trimStart text with
    | nil => rfl
    | cons first rest =>
        -- What is kept at the beginning is not blank.
        have solid := List.head?_dropWhile_not isBlank text
        rw [show text.dropWhile isBlank = first :: rest from kept] at solid
        have turned : first ∈ (trimStart text).reverse := by simp [kept]
        simp [blank first turned] at solid
  · rintro nothing character member
    simp [nothing] at member

end Text

end Scaffold
