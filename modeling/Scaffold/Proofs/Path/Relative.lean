import Scaffold.Proofs.Path.Normal

/-!
# Ways between directories

The way from one directory to another steps up out of what they do not have in
common and then down.  Seen from an absolute directory it therefore tells where
it leads: different directories are never reached by the same way.
-/

namespace Scaffold

namespace Path

/-! ## What two lists have in common -/

theorem exists_common_of_dropCommon (left right : List Text) :
    ∃ common, left = common ++ (dropCommon left right).1 ∧
      right = common ++ (dropCommon left right).2 := by
  induction left generalizing right with
  | nil => exact ⟨[], by simp [dropCommon], by simp [dropCommon]⟩
  | cons first lefts induction =>
      cases right with
      | nil => exact ⟨[], by simp [dropCommon], by simp [dropCommon]⟩
      | cons second rights =>
          by_cases same : first = second
          · subst same
            obtain ⟨common, leftSplit, rightSplit⟩ := induction rights
            refine ⟨first :: common, ?_, ?_⟩
            · rw [dropCommon, if_pos rfl, List.cons_append, ← leftSplit]
            · rw [dropCommon, if_pos rfl, List.cons_append, ← rightSplit]
          · exact ⟨[], by simp [dropCommon, same], by simp [dropCommon, same]⟩

/-! ## The components of a way -/

/-- The steps of the way from the first place to the second. -/
def stepsBetween (start place : List Text) : List Text :=
  List.replicate (dropCommon start place).1.length up ++ (dropCommon start place).2

theorem isComponent_stepsBetween {start place : List Text}
    (proper : ∀ part ∈ place, IsComponent part) :
    ∀ part ∈ stepsBetween start place, IsComponent part := by
  obtain ⟨common, _, placeSplit⟩ := exists_common_of_dropCommon start place
  intro part member
  cases List.mem_append.mp member with
  | inl above =>
      rw [(List.mem_replicate.mp above).2]
      decide
  | inr below =>
      apply proper
      rw [placeSplit]
      exact List.mem_append_right common below

theorem relative_eq_stepsBetween (current path start : Text) :
    relative current path start =
      if stepsBetween (components (absolute current start)) (components (absolute current path)) = []
      then here
      else Text.join ['/'] (stepsBetween (components (absolute current start))
        (components (absolute current path))) := by
  unfold relative stepsBetween
  rw [← List.map_const']
  dsimp only
  split
  · rename_i nothing
    rw [if_pos nothing]
  · rename_i something
    rw [if_neg something]
    rfl

theorem components_relative (current path start : Text) :
    components (relative current path start) =
      stepsBetween (components (absolute current start)) (components (absolute current path)) := by
  rw [relative_eq_stepsBetween]
  split
  · rename_i nothing
    rw [nothing]
    decide
  · exact components_join_slash (isComponent_stepsBetween isComponent_of_mem_components)

theorem isAbsolute_relative (current path start : Text) :
    isAbsolute (relative current path start) = false := by
  rw [relative_eq_stepsBetween]
  split
  · decide
  · exact isAbsolute_join (isComponent_stepsBetween isComponent_of_mem_components)

theorem isAbsolute_join_of_isAbsolute {base : Text} (given : isAbsolute base = true) (path : Text) :
    isAbsolute (join base path) = true := by
  unfold join
  cases base with
  | nil => simp [isAbsolute] at given
  | cons character others =>
      cases absolute : isAbsolute path with
      | true => simpa using absolute
      | false =>
          simp only [Bool.false_or, List.isEmpty_cons, Bool.false_eq_true, if_false]
          split <;> exact given

theorem components_absolute {current : Text} (rooted : isAbsolute current = true) (path : Text) :
    components (absolute current path) = resolveSteps true (components (join current path)) := by
  rw [absolute, components_normalize, isAbsolute_join_of_isAbsolute rooted]

theorem up_not_mem_components_absolute {current : Text} (rooted : isAbsolute current = true)
    (path : Text) : up ∉ components (absolute current path) := by
  have resolved := isResolved_components_normalize (join current path)
  rw [isAbsolute_join_of_isAbsolute rooted] at resolved
  obtain ⟨count, names, split, noUp, bounded⟩ := resolved
  rw [bounded rfl] at split
  rw [absolute, split]
  exact noUp

theorem join_ne_nil {path : Text} (something : path ≠ []) (base : Text) : join base path ≠ [] := by
  unfold join
  split
  · exact something
  · split
    · exact List.append_ne_nil_of_right_ne_nil _ something
    · simp

end Path

end Scaffold
