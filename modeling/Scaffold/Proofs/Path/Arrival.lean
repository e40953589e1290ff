import Scaffold.Proofs.Path.Containment
import Scaffold.Proofs.Path.Relative

/-!
# Ways arrive

The way from a directory to a place, followed from that directory, arrives at
the place.  The steps up take back exactly the names that the two do not have in
common, so this holds however the directory and the place are spelled, also when
both lie outside of the directory they are seen from.
-/

namespace Scaffold

namespace Path

/-! ## Steps that are followed -/

theorem foldl_resolveStep_climb {absolute : Bool} {names : List Text} (noUp : up ∉ names)
    (resolved : List Text) :
    (List.replicate names.length up).foldl (resolveStep absolute) (names ++ resolved) =
      resolved := by
  induction names with
  | nil => rfl
  | cons name rest induction =>
      have different : name ≠ up := fun same => noUp (same ▸ List.mem_cons_self)
      have step : resolveStep absolute (name :: (rest ++ resolved)) up = rest ++ resolved := by
        simp [resolveStep, different]
      rw [List.length_cons, List.replicate_succ, List.cons_append, List.foldl_cons, step]
      exact induction fun member => noUp (List.mem_cons_of_mem name member)

theorem foldl_resolveStep_stepsBetween {absolute : Bool} {start place : List Text}
    (startNoUp : up ∉ start) (placeNoUp : up ∉ place) :
    (stepsBetween start place).foldl (resolveStep absolute) start.reverse = place.reverse := by
  obtain ⟨common, startSplit, placeSplit⟩ := exists_common_of_dropCommon start place
  have left : up ∉ (dropCommon start place).1.reverse := by
    intro member
    apply startNoUp
    rw [startSplit]
    exact List.mem_append_right common (List.mem_reverse.mp member)
  have entered : up ∉ (dropCommon start place).2 := by
    intro member
    apply placeNoUp
    rw [placeSplit]
    exact List.mem_append_right common member
  have climbed := @foldl_resolveStep_climb absolute _ left common.reverse
  rw [List.length_reverse, ← List.reverse_append, ← startSplit] at climbed
  rw [stepsBetween, List.foldl_append, climbed, foldl_resolveStep_names entered,
    ← List.reverse_append, ← placeSplit]

/-! ## Paths that are joined -/

theorem isAbsolute_join_of_relative {base path : Text} (baseRelative : isAbsolute base = false)
    (pathRelative : isAbsolute path = false) : isAbsolute (join base path) = false := by
  unfold join
  cases base with
  | nil => simpa using pathRelative
  | cons character rest =>
      rw [pathRelative, List.isEmpty_cons]
      simp only [Bool.or_self, Bool.false_eq_true, if_false]
      split <;> exact baseRelative

/-- A relative path keeps the slashes that the directory begins with. -/
theorem rootSlashes_join_of_relative {base path : Text} (rooted : isAbsolute base = true)
    (relative : isAbsolute path = false) : rootSlashes (join base path) = rootSlashes base := by
  have solid : ∀ others, path ≠ '/' :: others := by
    rintro others rfl
    simp [isAbsolute] at relative
  have first (rest : Text) (other : ∀ others, rest ≠ '/' :: others) :
      rootSlashes ('/' :: rest) = ['/'] := by
    rw [rootSlashes]
    · rfl
    · exact fun others => other _
    · exact fun others => other _
  rcases base with _ | ⟨one, _ | ⟨two, _ | ⟨three, rest⟩⟩⟩
  · simp [isAbsolute] at rooted
  · obtain rfl : one = '/' := by simpa [isAbsolute] using rooted
    rw [join, relative]
    exact first path solid
  · obtain rfl : one = '/' := by simpa [isAbsolute] using rooted
    by_cases slash : two = '/'
    · subst slash
      rw [join, relative]
      show rootSlashes ('/' :: '/' :: path) = rootSlashes ['/', '/']
      rw [rootSlashes]
      · rfl
      · exact solid
    · have joined : join ['/', two] path = '/' :: two :: '/' :: path := by
        simp [join, relative, slash]
      rw [joined, first _ (by simp [slash]), first _ (by simp [slash])]
  · unfold join
    rw [relative, List.isEmpty_cons]
    simp only [Bool.or_self, Bool.false_eq_true, if_false]
    split <;> exact rootSlashes_three one two three _ _

theorem isBelow_within {path : Text} (relative : isAbsolute path = false) (base : Text) :
    isBelow base (within base path) = true := by
  apply isBelow_iff.mpr
  constructor
  · rw [within, rootSlashes_tidy]
    cases rooted : isAbsolute base with
    | true => exact (rootSlashes_join_of_relative rooted relative).symm
    | false =>
        have joined := isAbsolute_join_of_relative rooted relative
        rw [rootSlashes_of_relative rooted, rootSlashes_of_relative joined]
  · rw [components_within relative]
    exact List.prefix_append _ _

/-! ## Ways that are followed -/

variable {current start path : Text}

theorem components_absolute_join_relative (rooted : isAbsolute current = true)
    (startRelative : isAbsolute start = false) :
    components (absolute current (join start (relative current path start))) =
      components (absolute current path) := by
  have wayRelative := isAbsolute_relative current path start
  have joined : components (join current (join start (relative current path start))) =
      components (join current start) ++ components (relative current path start) := by
    rw [components_join, isAbsolute_join_of_relative startRelative wayRelative,
      components_join start, wayRelative, components_join current start, startRelative]
    exact (List.append_assoc _ _ _).symm
  have reached : (components (join current start)).foldl (resolveStep true) [] =
      (components (absolute current start)).reverse := by
    rw [components_absolute rooted, resolveSteps, List.reverse_reverse]
  rw [components_absolute rooted, joined, resolveSteps, List.foldl_append, reached,
    components_relative, foldl_resolveStep_stepsBetween
      (up_not_mem_components_absolute rooted start) (up_not_mem_components_absolute rooted path),
    List.reverse_reverse]

theorem absolute_join_relative (rooted : isAbsolute current = true)
    (startRelative : isAbsolute start = false) (pathRelative : isAbsolute path = false) :
    absolute current (join start (relative current path start)) = absolute current path := by
  apply normalize_eq_of_components
  · rw [rootSlashes_join_of_relative rooted pathRelative, rootSlashes_join_of_relative rooted
      (isAbsolute_join_of_relative startRelative (isAbsolute_relative current path start))]
  · exact components_absolute_join_relative rooted startRelative

end Path

end Scaffold
