import Scaffold.Proofs.Path.Normal

/-!
# Directories at and below a root

A normal path is given by the slashes that it begins with and by its components.
It lies at or below a root if it begins with the same slashes and goes on from the
root by names only.  A root with a name decides rightly which directories are below
it, and gives different ones different places.  The current directory, its
ancestors and the root of the file system have no name, and each of them misjudges
some paths.
-/

namespace Scaffold

namespace Path

/-- A path goes on from a root by some names. -/
structure Extends (root : Text) (names : List Text) (path : Text) : Prop where
  slashes : rootSlashes path = rootSlashes root
  components : components path = Path.components root ++ names
  noUp : up ∉ names

/-- The answer for a path below a root: a path outside is refused, and any other one
has its place below the target, under the same names. -/
structure IsContained (root target path : Text) (answer : Except OutsideRoot Text) : Prop where
  refused : answer = .error ⟨normalize path, normalize root⟩ ↔
    ¬ ∃ names, Extends (normalize root) names (normalize path)
  placed : ∀ names, Extends (normalize root) names (normalize path) →
    ∃ place, answer = .ok place ∧ normalize place = place ∧
      Extends (normalize target) names place

/-- Normal paths that are misjudged below a normal root without a name. -/
inductive IsMisjudged (root path : Text) : Prop where
  /-- A step up behind the root counts as a directory below it. -/
  | climbs (rest : List Text) (relative : rootSlashes root = []) (alike : rootSlashes path = [])
      (further : components path = components root ++ up :: rest)
  /-- The current directory takes in absolute paths, and the root of the file system
  takes in those with one slash more. -/
  | strays (nameless : components root = [])
      (more : (rootSlashes root).length < (rootSlashes path).length)
  /-- Nothing counts as below the root of the file system. -/
  | starves (nameless : components root = []) (absolute : rootSlashes root ≠ [])
      (alike : rootSlashes path = rootSlashes root) (below : components path ≠ [])

/-! ## Slashes and components make a normal path -/

theorem normalize_eq (path : Text) :
    normalize path =
      if (rootSlashes path ++ Text.join ['/'] (components (normalize path))).isEmpty then here
      else rootSlashes path ++ Text.join ['/'] (components (normalize path)) := by
  rw [components_normalize]
  rfl

theorem normalize_eq_of_components {path other : Text}
    (slashes : rootSlashes path = rootSlashes other)
    (parts : components (normalize path) = components (normalize other)) :
    normalize path = normalize other := by
  rw [normalize_eq path, normalize_eq other, slashes, parts]

theorem isAbsolute_eq_false_iff {path : Text} :
    isAbsolute path = false ↔ rootSlashes path = [] := by
  refine ⟨rootSlashes_of_relative, fun nothing => ?_⟩
  have kept : isAbsolute (rootSlashes path ++ []) = isAbsolute path :=
    isAbsolute_rootSlashes_append path rfl
  rw [nothing] at kept
  exact kept.symm

theorem up_not_mem_components_normalize {path : Text} (absolute : rootSlashes path ≠ []) :
    up ∉ components (normalize path) := by
  have isAbsolute : isAbsolute path = true := by
    rw [← Bool.not_eq_false, isAbsolute_eq_false_iff]
    exact absolute
  obtain ⟨count, names, parts, noUp, bounded⟩ := isResolved_components_normalize path
  rw [parts, bounded isAbsolute]
  exact noUp

theorem ups_of_append {path : Text} {front rest : List Text}
    (parts : components (normalize path) = front ++ rest) (climbs : up ∈ rest) :
    (∀ part ∈ front, part = up) ∧ ∃ others, rest = up :: others := by
  obtain ⟨count, names, whole, noUp, _⟩ := isResolved_components_normalize path
  rw [parts] at whole
  rcases List.append_eq_append_iff.mp whole with ⟨gap, ups, behind⟩ | ⟨gap, _, late⟩
  · have allUps : ∀ part ∈ front ++ gap, part = up := fun part member =>
      List.eq_of_mem_replicate (ups ▸ member)
    refine ⟨fun part member => allUps part (List.mem_append_left gap member), ?_⟩
    cases gap with
    | nil => exact absurd climbs (by simpa [behind] using noUp)
    | cons first others =>
        have isUp : first = up := allUps first (by simp)
        exact ⟨others ++ names, by rw [behind, isUp, List.cons_append]⟩
  · exact absurd (late ▸ List.mem_append_right gap climbs) noUp

/-! ## Steps of normal paths -/

theorem rootSlashes_cases (path : Text) :
    rootSlashes path = [] ∨ rootSlashes path = ['/'] ∨ rootSlashes path = ['/', '/'] := by
  unfold rootSlashes
  split
  · exact .inr (.inl rfl)
  · exact .inr (.inr rfl)
  · exact .inr (.inl rfl)
  · exact .inl rfl

/-- An absolute path has an empty step for each slash, and one more without a
component. -/
theorem steps_normalize_of_isAbsolute {path : Text} (absolute : rootSlashes path ≠ []) :
    steps (normalize path) =
      (rootSlashes path).map (fun _ => []) ++
        if components (normalize path) = [] then [[]] else components (normalize path) := by
  have written : normalize path =
      rootSlashes path ++ Text.join ['/'] (components (normalize path)) :=
    (normalize_eq path).trans (if_neg (by simp [absolute]))
  have pieces : Text.splitOn '/' (Text.join ['/'] (components (normalize path))) =
      if components (normalize path) = [] then [[]] else components (normalize path) := by
    split
    · rename_i nothing
      rw [nothing]
      rfl
    · rename_i something
      exact Text.splitOn_join
        (fun part member => (isComponent_of_mem_components part member).2.2) something
  rw [← pieces]
  generalize components (normalize path) = parts at written
  have different : normalize path ≠ here := by
    rcases rootSlashes_cases path with none | one | two
    · exact absurd none absolute
    · rw [written, one]
      simp [here]
    · rw [written, two]
      simp [here]
  rw [steps, if_neg different, written]
  rcases rootSlashes_cases path with none | one | two
  · exact absurd none absolute
  · rw [one, List.cons_append, Text.splitOn_cons_self]
    rfl
  · rw [two, List.cons_append, List.cons_append, Text.splitOn_cons_self, Text.splitOn_cons_self]
    rfl

theorem below?_eq_some_iff {root path : Text} {rest : List Text} :
    below? root path = some rest ↔ steps path = steps root ++ rest := by
  unfold below?
  dsimp only
  constructor
  · intro found
    split at found
    · rename_i nested
      obtain ⟨others, whole⟩ := List.isPrefixOf_iff_prefix.mp nested
      rw [← whole, List.drop_left, Option.some.injEq] at found
      rw [← whole, found]
    · exact absurd found (by simp)
  · intro whole
    rw [whole, if_pos (List.isPrefixOf_iff_prefix.mpr (List.prefix_append _ _)), List.drop_left]

/-- The steps behind the slashes of a path: an empty one if there is no component. -/
def ending (slashes : Text) (parts : List Text) : List Text :=
  if slashes ≠ [] ∧ parts = [] then [[]] else parts

theorem ending_of_named {slashes : Text} {parts : List Text} (named : parts ≠ [] ∨ slashes = []) :
    ending slashes parts = parts :=
  if_neg fun both => named.elim (fun something => something both.2) both.1

theorem ending_of_nameless {slashes : Text} (absolute : slashes ≠ []) : ending slashes [] = [[]] :=
  if_pos ⟨absolute, rfl⟩

theorem steps_normalize_eq (path : Text) :
    steps (normalize path) =
      (rootSlashes path).map (fun _ => []) ++
        ending (rootSlashes path) (components (normalize path)) := by
  by_cases relative : rootSlashes path = []
  · rw [steps_normalize (isAbsolute_eq_false_iff.mpr relative), relative,
      ending_of_named (.inr rfl)]
    rfl
  · rw [steps_normalize_of_isAbsolute relative, ending]
    simp [relative]

variable {root path : Text} {rest : List Text}

private theorem ne_nil_of_mem_components {part : Text} (member : part ∈ components path) :
    part ≠ [] :=
  (isComponent_of_mem_components part member).1

theorem steps_append_iff (named : components (normalize root) ≠ [] ∨ rootSlashes root = [])
    (alike : rootSlashes path = rootSlashes root) :
    steps (normalize path) = steps (normalize root) ++ rest ↔
      components (normalize path) = components (normalize root) ++ rest := by
  rw [steps_normalize_eq, steps_normalize_eq, alike, List.append_assoc, List.append_cancel_left_eq,
    ending_of_named named]
  by_cases other : components (normalize path) ≠ [] ∨ rootSlashes root = []
  · rw [ending_of_named other]
  · -- An empty step is no component of the root.
    obtain ⟨nameless, absolute⟩ := not_or.mp other
    rw [not_not] at nameless
    obtain ⟨part, others, parts⟩ := List.exists_cons_of_ne_nil (named.resolve_right absolute)
    have proper : part ≠ [] := ne_nil_of_mem_components (parts ▸ List.mem_cons_self)
    rw [nameless, ending_of_nameless absolute, parts]
    simp [proper.symm]

/-- Other slashes than those of the root make other steps, unless the root has no
component and fewer slashes. -/
theorem slashes_of_steps (whole : steps (normalize path) = steps (normalize root) ++ rest) :
    rootSlashes path = rootSlashes root ∨
      components (normalize root) = [] ∧ (rootSlashes root).length < (rootSlashes path).length := by
  rw [steps_normalize_eq, steps_normalize_eq] at whole
  have proper : ∀ part ∈ components (normalize path), part ≠ [] := fun _ =>
    ne_nil_of_mem_components
  have rootProper : ∀ part ∈ components (normalize root), part ≠ [] := fun _ =>
    ne_nil_of_mem_components
  cases parts : components (normalize root) <;> cases others : components (normalize path) <;>
    rcases rootSlashes_cases root with none | one | two <;>
    rcases rootSlashes_cases path with none' | one' | two' <;>
    simp_all [ending]

/-- What counts as below a root is below it, unless it climbs or strays. -/
theorem extends_of_below? (right : ¬ IsMisjudged (normalize root) (normalize path))
    (found : below? (normalize root) (normalize path) = some rest) :
    Extends (normalize root) rest (normalize path) := by
  have whole := below?_eq_some_iff.mp found
  have alike : rootSlashes path = rootSlashes root := by
    rcases slashes_of_steps whole with alike | ⟨nameless, more⟩
    · exact alike
    · exact absurd (.strays nameless (by simpa [rootSlashes_normalize] using more)) right
  have normalAlike : rootSlashes (normalize path) = rootSlashes (normalize root) := by
    rw [rootSlashes_normalize, rootSlashes_normalize, alike]
  by_cases named : components (normalize root) ≠ [] ∨ rootSlashes root = []
  · have parts := (steps_append_iff named alike).mp whole
    refine ⟨normalAlike, parts, fun climbs => ?_⟩
    by_cases relative : rootSlashes root = []
    · obtain ⟨others, same⟩ := (ups_of_append parts climbs).2
      refine right (.climbs others ?_ ?_ (same ▸ parts))
      · rw [rootSlashes_normalize, relative]
      · rw [rootSlashes_normalize, alike, relative]
    · have absolute : rootSlashes path ≠ [] := alike ▸ relative
      exact up_not_mem_components_normalize absolute (parts ▸ List.mem_append_right _ climbs)
  · -- Only the root itself begins with the steps of a root without a name.
    obtain ⟨nameless, absolute⟩ := not_or.mp named
    rw [not_not] at nameless
    rw [steps_normalize_eq, steps_normalize_eq, alike, nameless, ending_of_nameless absolute,
      List.append_assoc, List.append_cancel_left_eq] at whole
    by_cases nothing : components (normalize path) = []
    · rw [nothing, ending_of_nameless absolute] at whole
      have none : rest = [] := by simpa using whole
      exact ⟨normalAlike, by rw [nothing, nameless, none]; rfl, by simp [none]⟩
    · rw [ending_of_named (.inl nothing)] at whole
      have listed : [] ∈ components (normalize path) := by simp [whole]
      exact absurd rfl (ne_nil_of_mem_components listed)

/-- What is below a root counts as below it, unless it starves. -/
theorem below?_of_extends {names : List Text}
    (right : ¬ IsMisjudged (normalize root) (normalize path))
    (inside : Extends (normalize root) names (normalize path)) :
    below? (normalize root) (normalize path) = some names := by
  have alike : rootSlashes path = rootSlashes root := by
    simpa [rootSlashes_normalize] using inside.slashes
  rw [below?_eq_some_iff]
  by_cases named : components (normalize root) ≠ [] ∨ rootSlashes root = []
  · exact (steps_append_iff named alike).mpr inside.components
  · obtain ⟨nameless, absolute⟩ := not_or.mp named
    rw [not_not] at nameless
    have parts := inside.components
    rw [nameless, List.nil_append] at parts
    by_cases nothing : names = []
    · rw [nothing, List.append_nil,
        normalize_eq_of_components alike (by rw [parts, nothing, nameless])]
    · refine absurd (.starves nameless ?_ inside.slashes (by rwa [parts])) right
      rwa [rootSlashes_normalize]

/-- A misjudged path counts as below a root exactly if it is not. -/
theorem below?_of_isMisjudged (wrong : IsMisjudged (normalize root) (normalize path)) :
    ((∃ rest, below? (normalize root) (normalize path) = some rest) ↔
      ¬ ∃ names, Extends (normalize root) names (normalize path)) := by
  cases wrong with
  | climbs rest relative alike further =>
      rw [rootSlashes_normalize] at relative alike
      have taken := (steps_append_iff (.inr relative) (alike.trans relative.symm)).mpr further
      refine iff_of_true ⟨_, below?_eq_some_iff.mpr taken⟩ ?_
      rintro ⟨names, _, parts, noUp⟩
      rw [further, List.append_cancel_left_eq] at parts
      exact noUp (parts ▸ List.mem_cons_self)
  | strays nameless more =>
      have taken : ∃ rest, steps (normalize path) = steps (normalize root) ++ rest := by
        rw [rootSlashes_normalize, rootSlashes_normalize] at more
        rw [steps_normalize_eq, steps_normalize_eq, nameless]
        rcases rootSlashes_cases root with none | one | two <;>
          rcases rootSlashes_cases path with none' | one' | two' <;>
          simp_all [ending]
      obtain ⟨rest, taken⟩ := taken
      refine iff_of_true ⟨rest, below?_eq_some_iff.mpr taken⟩ ?_
      rintro ⟨names, slashes, _, _⟩
      rw [slashes] at more
      exact Nat.lt_irrefl _ more
  | starves nameless absolute alike below =>
      rw [rootSlashes_normalize] at absolute
      refine iff_of_false ?_ (not_not.mpr ⟨components (normalize path), alike, ?_, ?_⟩)
      · rintro ⟨rest, found⟩
        have whole := below?_eq_some_iff.mp found
        rw [rootSlashes_normalize, rootSlashes_normalize] at alike
        rw [steps_normalize_eq, steps_normalize_eq, alike, nameless, ending_of_nameless absolute,
          ending_of_named (.inl below), List.append_assoc, List.append_cancel_left_eq] at whole
        have listed : [] ∈ components (normalize path) := by simp [whole]
        exact absurd rfl (ne_nil_of_mem_components listed)
      · rw [nameless]
        rfl
      · apply up_not_mem_components_normalize
        rw [rootSlashes_normalize, rootSlashes_normalize] at alike
        rwa [alike]

/-! ## Places below a target -/

theorem rootSlashes_three (one two three : Char) (rest more : Text) :
    rootSlashes (one :: two :: three :: rest) = rootSlashes (one :: two :: three :: more) := by
  by_cases first : one = '/' <;> by_cases second : two = '/' <;> by_cases third : three = '/' <;>
    simp [rootSlashes, first, second, third]

theorem rootSlashes_join {base name : Text} (something : base ≠ []) (proper : IsComponent name) :
    rootSlashes (join base name) = rootSlashes base := by
  obtain ⟨named, _, clean⟩ := proper
  obtain ⟨character, others, rfl⟩ := List.exists_cons_of_ne_nil named
  have solid : character ≠ '/' := fun same => clean (same ▸ List.mem_cons_self)
  rcases base with _ | ⟨one, _ | ⟨two, _ | ⟨three, rest⟩⟩⟩
  · exact absurd rfl something
  · by_cases first : one = '/' <;> simp [join, isAbsolute, rootSlashes, first, solid]
  · by_cases first : one = '/' <;> by_cases second : two = '/' <;>
      simp [join, isAbsolute, rootSlashes, first, second, solid]
  · obtain ⟨more, same⟩ :
        ∃ more, join (one :: two :: three :: rest) (character :: others) =
          one :: two :: three :: more := by
      unfold join
      split
      · simp_all [isAbsolute]
      · split <;> exact ⟨_, rfl⟩
    rw [same]
    exact rootSlashes_three one two three more rest

theorem rootSlashes_joinAll {names : List Text} (proper : ∀ name ∈ names, IsComponent name)
    {base : Text} (something : base ≠ []) :
    rootSlashes (joinAll base names) = rootSlashes base := by
  induction names generalizing base with
  | nil => rfl
  | cons name rest induction =>
      obtain ⟨first, later⟩ := List.forall_mem_cons.mp proper
      have nonempty : join base name ≠ [] := by
        intro nothing
        have parts := (components_join_name first something).1
        rw [nothing] at parts
        exact List.append_ne_nil_of_right_ne_nil _ (List.cons_ne_nil name []) parts.symm
      calc
        rootSlashes (joinAll (join base name) rest) = rootSlashes (join base name) :=
          induction later nonempty
        _ = rootSlashes base := rootSlashes_join something first

theorem extends_joinAll (target : Text) {names : List Text}
    (proper : ∀ name ∈ names, IsComponent name) (noUp : up ∉ names) :
    Extends (normalize target) names (normalize (joinAll (normalize target) names)) := by
  have something := normalize_ne_nil target
  obtain ⟨parts, absolute⟩ := joinAll_names proper (normalize target)
  refine ⟨?_, ?_, noUp⟩
  · rw [rootSlashes_normalize, rootSlashes_joinAll proper something]
  · by_cases none : names = []
    · subst none
      rw [List.append_nil]
      exact components_normalize_normalize target
    · rw [components_normalize, absolute none something, parts, resolveSteps_append noUp,
        ← components_normalize, components_normalize_normalize]

/-! ## Answers -/

theorem transplant_eq (root target path : Text) :
    transplant root target path =
      match below? (normalize root) (normalize path) with
      | none => .error ⟨normalize path, normalize root⟩
      | some names => .ok (normalize (joinAll (normalize target) names)) := by
  unfold transplant
  dsimp only
  split <;> simp_all [joinAll]

/-- A path is answered rightly exactly if it is not misjudged. -/
theorem isContained_iff (root target path : Text) :
    IsContained root target path (transplant root target path) ↔
      ¬ IsMisjudged (normalize root) (normalize path) := by
  rw [transplant_eq]
  constructor
  · intro contained wrong
    have refused := contained.refused
    have taken := below?_of_isMisjudged wrong
    cases found : below? (normalize root) (normalize path) with
    | none => simp_all
    | some names => simp_all
  · intro right
    cases found : below? (normalize root) (normalize path) with
    | none =>
        have outside : ¬ ∃ names, Extends (normalize root) names (normalize path) := by
          rintro ⟨names, inside⟩
          rw [below?_of_extends right inside] at found
          exact Option.some_ne_none names found
        exact ⟨iff_of_true rfl outside, fun names inside => absurd ⟨names, inside⟩ outside⟩
    | some names =>
        have inside := extends_of_below? right found
        refine ⟨iff_of_false (by simp) (not_not.mpr ⟨names, inside⟩), fun others again => ?_⟩
        have same : others = names :=
          List.append_cancel_left (again.components.symm.trans inside.components)
        have proper : ∀ name ∈ names, IsComponent name := fun name member =>
          isComponent_of_mem_components name
            (inside.components ▸ List.mem_append_right _ member)
        rw [same]
        exact ⟨_, rfl, normalize_normalize _, extends_joinAll target proper inside.noUp⟩

/-- A root has a name: it is not the current directory, an ancestor of it or the root
of the file system. -/
def HasName (root : Text) : Prop :=
  ∃ name ∈ components (normalize root), name ≠ up

instance (root : Text) : Decidable (HasName root) :=
  inferInstanceAs (Decidable (∃ name ∈ components (normalize root), name ≠ up))

theorem not_isMisjudged_of_hasName (named : HasName root) (path : Text) :
    ¬ IsMisjudged (normalize root) (normalize path) := by
  obtain ⟨name, member, different⟩ := named
  intro wrong
  cases wrong with
  | climbs rest _ _ further => exact different ((ups_of_append further (by simp)).1 name member)
  | strays nameless _ => simp [nameless] at member
  | starves nameless _ _ _ => simp [nameless] at member

theorem exists_isMisjudged_of_not_hasName (nameless : ¬ HasName root) :
    ∃ path, IsMisjudged (normalize root) (normalize path) := by
  have ups : ∀ part ∈ components (normalize root), part = up := by
    simpa [HasName] using nameless
  by_cases relative : rootSlashes root = []
  · have proper : IsComponent up := by decide
    obtain ⟨parts, kind⟩ := components_join_name proper (normalize_ne_nil root)
    rw [isAbsolute_normalize, isAbsolute_eq_false_iff.mpr relative] at kind
    refine ⟨join (normalize root) up, .climbs [] ?_ ?_ ?_⟩
    · rw [rootSlashes_normalize, relative]
    · rw [rootSlashes_normalize, isAbsolute_eq_false_iff.mp kind]
    · rw [components_normalize, kind, parts]
      apply resolveSteps_of_isResolved
      have all := List.eq_replicate_of_mem ups
      refine ⟨(components (normalize root)).length + 1, [], ?_, by simp, by simp⟩
      rw [List.append_nil, List.replicate_succ', ← all]
  · have nothing : components (normalize root) = [] := by
      rw [List.eq_nil_iff_forall_not_mem]
      intro part member
      exact up_not_mem_components_normalize relative (ups part member ▸ member)
    have normal : rootSlashes (normalize root) ≠ [] := by rwa [rootSlashes_normalize]
    rcases rootSlashes_cases (normalize root) with none | one | two
    · exact absurd none normal
    · exact ⟨"/a", .starves nothing normal (by rw [one]; decide) (by decide)⟩
    · exact ⟨"//a", .starves nothing normal (by rw [two]; decide) (by decide)⟩

theorem IsContained.exists_names {target place : Text}
    (contained : IsContained root target path (.ok place)) :
    ∃ names, Extends (normalize root) names (normalize path) ∧
      Extends (normalize target) names place := by
  have inside : ∃ names, Extends (normalize root) names (normalize path) := by
    by_contra outside
    exact absurd (contained.refused.mpr outside) (by simp)
  obtain ⟨names, extended⟩ := inside
  obtain ⟨same, known, _, placed⟩ := contained.placed names extended
  exact ⟨names, extended, Except.ok.inj known ▸ placed⟩

theorem normalize_eq_of_isContained {target other place : Text}
    (first : IsContained root target path (.ok place))
    (second : IsContained root target other (.ok place)) : normalize path = normalize other := by
  obtain ⟨names, here, placed⟩ := first.exists_names
  obtain ⟨others, there, again⟩ := second.exists_names
  have same : names = others :=
    List.append_cancel_left (placed.components.symm.trans again.components)
  apply normalize_eq_of_components
  · simpa [rootSlashes_normalize] using here.slashes.trans there.slashes.symm
  · rw [here.components, there.components, same]

/-- Below a root a path is answered as it should be exactly if it is not misjudged, so
all paths are exactly if the root has a name; and paths that are answered so with one
place are the same path. -/
theorem transplant_contains (root target : Text) :
    (∀ path, IsContained root target path (transplant root target path) ↔
      ¬ IsMisjudged (normalize root) (normalize path)) ∧
    ((∀ path, IsContained root target path (transplant root target path)) ↔ HasName root) ∧
    ∀ path other place, transplant root target path = .ok place →
      transplant root target other = .ok place →
      ¬ IsMisjudged (normalize root) (normalize path) →
      ¬ IsMisjudged (normalize root) (normalize other) → normalize path = normalize other := by
  refine ⟨isContained_iff root target, ⟨fun all => ?_, fun named path => ?_⟩, ?_⟩
  · by_contra nameless
    obtain ⟨path, wrong⟩ := exists_isMisjudged_of_not_hasName nameless
    exact (isContained_iff root target path).mp (all path) wrong
  · exact (isContained_iff root target path).mpr (not_isMisjudged_of_hasName named path)
  · intro path other place first second right also
    have here := (isContained_iff root target path).mpr right
    have there := (isContained_iff root target other).mpr also
    rw [first] at here
    rw [second] at there
    exact normalize_eq_of_isContained here there

/-- Directories below a root with dots and slashes to spare. -/
theorem transplant_contains_nested :
    transplant "./api/" "internal//x" "api/./a/../b" = .ok "internal/x/b" ∧
      transplant "./api/" "internal//x" "apiv2/b" = .error ⟨"apiv2/b", "api"⟩ ∧
      IsContained "./api/" "internal//x" "api/./a/../b" (.ok "internal/x/b") ∧
      IsContained "./api/" "internal//x" "apiv2/b" (.error ⟨"apiv2/b", "api"⟩) := by
  have placed : transplant "./api/" "internal//x" "api/./a/../b" = .ok "internal/x/b" := by decide
  have refused : transplant "./api/" "internal//x" "apiv2/b" = .error ⟨"apiv2/b", "api"⟩ := by
    decide
  have named : HasName "./api/" := by decide
  have all := (transplant_contains "./api/" "internal//x").2.1.mpr named
  exact ⟨placed, refused, placed ▸ all _, refused ▸ all _⟩

/-- The parent directory is not below the current one, and its place is outside the
target. -/
theorem parent_not_refused :
    transplant "." "internal" "../x" = .ok "x" ∧
      ¬ IsContained "." "internal" "../x" (transplant "." "internal" "../x") := by
  have placed : transplant "." "internal" "../x" = .ok "x" := by decide
  refine ⟨placed, fun contained => ?_⟩
  rw [placed] at contained
  obtain ⟨names, inside, _⟩ := contained.exists_names
  have parts := inside.components
  have known : up :: ["x"] = names := parts
  exact inside.noUp (known ▸ List.mem_cons_self)

end Path

end Scaffold
