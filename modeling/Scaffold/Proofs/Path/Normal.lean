import Scaffold.Path.Nesting
import Scaffold.Proofs.Path.Components

/-!
# Normalised paths

The components of a normalised path are steps up followed by names, and names
that are appended to a path are appended to its normal form.  A directory that
is transplanted below another root therefore keeps its names.
-/

namespace Scaffold

namespace Path

/-! ## Resolved components -/

/-- Components that no step up can shorten: steps up, which an absolute path
does not have, and then names. -/
def IsResolved (absolute : Bool) (parts : List Text) : Prop :=
  ∃ count names, parts = List.replicate count up ++ names ∧ up ∉ names ∧
    (absolute = true → count = 0)

private theorem resolveStep_name {absolute : Bool} {part : Text} (different : part ≠ up)
    (resolved : List Text) : resolveStep absolute resolved part = part :: resolved := by
  simp [resolveStep, different]

theorem foldl_resolveStep_names {absolute : Bool} {names : List Text} (noUp : up ∉ names)
    (resolved : List Text) :
    names.foldl (resolveStep absolute) resolved = names.reverse ++ resolved := by
  induction names generalizing resolved with
  | nil => rfl
  | cons name rest induction =>
      have different : name ≠ up := by
        intro same
        apply noUp
        simp [same]
      have later : up ∉ rest := by
        intro member
        apply noUp
        simp [member]
      rw [List.foldl_cons, resolveStep_name different, induction later]
      simp

theorem resolveSteps_append {absolute : Bool} {names : List Text} (noUp : up ∉ names)
    (parts : List Text) :
    resolveSteps absolute (parts ++ names) = resolveSteps absolute parts ++ names := by
  simp [resolveSteps, foldl_resolveStep_names noUp]

private theorem foldl_resolveStep_ups (count : Nat) (others : Nat) :
    (List.replicate count up).foldl (resolveStep false) (List.replicate others up) =
      List.replicate (others + count) up := by
  induction count generalizing others with
  | zero => rfl
  | succ count induction =>
      have step : resolveStep false (List.replicate others up) up =
          List.replicate (others + 1) up := by
        cases others with
        | zero => simp [resolveStep]
        | succ others => simp [resolveStep, List.replicate_succ]
      rw [List.replicate_succ, List.foldl_cons, step, induction]
      congr 1
      omega

theorem resolveSteps_of_isResolved {absolute : Bool} {parts : List Text}
    (resolved : IsResolved absolute parts) : resolveSteps absolute parts = parts := by
  obtain ⟨count, names, rfl, noUp, bounded⟩ := resolved
  rw [resolveSteps_append noUp]
  apply congrArg (· ++ names)
  cases absolute with
  | true => simp [bounded rfl, resolveSteps]
  | false =>
      have ups := foldl_resolveStep_ups count 0
      rw [Nat.zero_add] at ups
      rw [resolveSteps, ← List.replicate_zero (a := up), ups, List.reverse_replicate]

/-- One step keeps the names on top of the steps up. -/
private theorem isResolved_resolveStep {absolute : Bool} {resolved : List Text}
    (before : IsResolved absolute resolved.reverse) (part : Text) :
    IsResolved absolute (resolveStep absolute resolved part).reverse := by
  obtain ⟨count, names, split, noUp, bounded⟩ := before
  have shape : resolved = names.reverse ++ List.replicate count up := by
    have reversed := congrArg List.reverse split
    simpa using reversed
  subst shape
  by_cases step : part = up
  · subst step
    rcases List.eq_nil_or_concat names with rfl | ⟨parents, last, rfl⟩
    · cases count with
      | zero =>
          cases absolute with
          | true => exact ⟨0, [], by simp [resolveStep], by simp, fun _ => rfl⟩
          | false => exact ⟨1, [], by simp [resolveStep], by simp, by simp⟩
      | succ count =>
          have free : absolute = false := by
            cases absolute with
            | true => exact absurd (bounded rfl) (by simp)
            | false => rfl
          have above : resolveStep absolute ([].reverse ++ List.replicate (count + 1) up) up =
              List.replicate (count + 2) up := by
            simp [resolveStep, List.replicate_succ]
          exact ⟨count + 2, [], by rw [above]; simp, by simp, by simp [free]⟩
    · have different : last ≠ up := by
        intro same
        apply noUp
        simp [same]
      have parentsNoUp : up ∉ parents := by
        intro member
        apply noUp
        simp [member]
      exact ⟨count, parents, by simp [resolveStep, different], parentsNoUp, bounded⟩
  · have stays : up ∉ names ++ [part] := by
      simp [noUp, Ne.symm step]
    exact ⟨count, names ++ [part], by simp [resolveStep_name step], stays, bounded⟩

theorem isResolved_resolveSteps (absolute : Bool) (parts : List Text) :
    IsResolved absolute (resolveSteps absolute parts) := by
  have grows : ∀ resolved, IsResolved absolute resolved.reverse →
      IsResolved absolute (parts.foldl (resolveStep absolute) resolved).reverse := by
    induction parts with
    | nil => exact fun _ before => before
    | cons part rest induction =>
        intro resolved before
        exact induction _ (isResolved_resolveStep before part)
  apply grows
  exact ⟨0, [], by simp, by simp, fun _ => rfl⟩

/-! ## Normal forms -/

theorem mem_of_mem_resolveStep_any {absolute : Bool} {resolved : List Text} {part first : Text}
    (member : part ∈ resolveStep absolute resolved first) : part ∈ resolved ∨ part = first := by
  unfold resolveStep at member
  split at member
  · rename_i step
    cases resolved with
    | nil =>
        cases absolute with
        | true => simp at member
        | false =>
            right
            rw [step]
            simpa using member
    | cons last rest =>
        dsimp only at member
        split at member
        · rcases List.mem_cons.mp member with now | old
          · exact .inr (now.trans step.symm)
          · exact .inl old
        · exact .inl (List.mem_cons_of_mem last member)
  · rcases List.mem_cons.mp member with now | old
    · exact .inr now
    · exact .inl old

theorem isComponent_resolveSteps {absolute : Bool} {parts : List Text}
    (proper : ∀ part ∈ parts, IsComponent part) :
    ∀ part ∈ resolveSteps absolute parts, IsComponent part := by
  have collected : ∀ resolved, (∀ part ∈ resolved, IsComponent part) →
      ∀ part ∈ parts.foldl (resolveStep absolute) resolved, IsComponent part := by
    induction parts with
    | nil => exact fun _ known => known
    | cons first rest induction =>
        intro resolved known
        apply induction
        · intro part member
          exact proper part (List.mem_cons_of_mem first member)
        · intro part member
          rcases mem_of_mem_resolveStep_any member with old | same
          · exact known part old
          · rw [same]
            exact proper first List.mem_cons_self
  intro part member
  apply collected []
  · simp
  · simpa [resolveSteps] using member

theorem isAbsolute_rootSlashes_append (path : Text) {rest : Text} (relative : isAbsolute rest = false) :
    isAbsolute (rootSlashes path ++ rest) = isAbsolute path := by
  unfold rootSlashes
  split
  · rfl
  · rfl
  · rfl
  · rename_i other
    rw [show ("" : Text) ++ rest = rest from rfl, relative]
    cases path with
    | nil => rfl
    | cons character rest =>
        have different : character ≠ '/' := by
          intro same
          exact other rest (by rw [same])
        simp [isAbsolute, different]

theorem isAbsolute_join {parts : List Text} (proper : ∀ part ∈ parts, IsComponent part) :
    isAbsolute (Text.join ['/'] parts) = false := by
  cases parts with
  | nil => rfl
  | cons part rest =>
      obtain ⟨something, _, clean⟩ := proper part List.mem_cons_self
      cases part with
      | nil => exact absurd rfl something
      | cons character others =>
          have different : character ≠ '/' := by
            intro same
            apply clean
            simp [same]
          cases rest with
          | nil => simp [Text.join, isAbsolute, different]
          | cons next others => simp [Text.join, isAbsolute, different]

private theorem isComponent_resolved (path : Text) :
    ∀ part ∈ resolveSteps (isAbsolute path) (components path), IsComponent part :=
  isComponent_resolveSteps isComponent_of_mem_components

theorem isAbsolute_normalize (path : Text) : isAbsolute (normalize path) = isAbsolute path := by
  have relative := isAbsolute_join (isComponent_resolved path)
  have kept := isAbsolute_rootSlashes_append path relative
  unfold normalize
  dsimp only
  split
  · rename_i empty
    rw [← kept]
    have nothing := List.isEmpty_iff.mp empty
    rw [show rootSlashes path ++ Text.join ['/'] (resolveSteps (isAbsolute path)
      (components path)) = [] from nothing]
    rfl
  · exact kept

theorem components_normalize (path : Text) :
    components (normalize path) = resolveSteps (isAbsolute path) (components path) := by
  have kept : components (rootSlashes path ++
      Text.join ['/'] (resolveSteps (isAbsolute path) (components path))) =
        resolveSteps (isAbsolute path) (components path) := by
    rw [components_rootSlashes_append, components_join_slash (isComponent_resolved path)]
  unfold normalize
  dsimp only
  split
  · rename_i empty
    rw [← kept]
    have nothing := List.isEmpty_iff.mp empty
    rw [show rootSlashes path ++ Text.join ['/'] (resolveSteps (isAbsolute path)
      (components path)) = [] from nothing]
    rfl
  · exact kept

theorem isResolved_components_normalize (path : Text) :
    IsResolved (isAbsolute path) (components (normalize path)) := by
  rw [components_normalize]
  exact isResolved_resolveSteps _ _

theorem components_normalize_normalize (path : Text) :
    components (normalize (normalize path)) = components (normalize path) := by
  rw [components_normalize, isAbsolute_normalize]
  exact resolveSteps_of_isResolved (isResolved_components_normalize path)

theorem normalize_ne_nil (path : Text) : normalize path ≠ [] := by
  unfold normalize
  dsimp only
  split
  · simp [here]
  · rename_i nonempty
    simpa using nonempty

theorem rootSlashes_of_relative {path : Text} (relative : isAbsolute path = false) :
    rootSlashes path = [] := by
  unfold rootSlashes
  split <;> first | rfl | simp [isAbsolute] at relative

theorem rootSlashes_rootSlashes_append (path : Text) {rest : Text} (relative : isAbsolute rest = false) :
    rootSlashes (rootSlashes path ++ rest) = rootSlashes path := by
  have noSlash : ∀ others, rest ≠ '/' :: others := by
    intro others same
    rw [same] at relative
    simp [isAbsolute] at relative
  have one : rootSlashes ('/' :: rest) = ['/'] := by
    rw [rootSlashes]
    · rfl
    · intro others same
      exact noSlash _ same
    · intro others same
      exact noSlash _ same
  have two : rootSlashes ('/' :: '/' :: rest) = ['/', '/'] := by
    rw [rootSlashes]
    · rfl
    · exact noSlash
  cases slashes : rootSlashes path with
  | nil => exact rootSlashes_of_relative relative
  | cons first others =>
      unfold rootSlashes at slashes
      split at slashes
      · rw [← slashes]
        exact one
      · rw [← slashes]
        exact two
      · rw [← slashes]
        exact one
      · simp at slashes

theorem rootSlashes_normalize (path : Text) : rootSlashes (normalize path) = rootSlashes path := by
  have kept := rootSlashes_rootSlashes_append path
    (isAbsolute_join (isComponent_resolved path))
  unfold normalize
  dsimp only
  split
  · rename_i empty
    have nothing := (List.append_eq_nil_iff.mp (List.isEmpty_iff.mp empty)).1
    rw [nothing]
    rfl
  · exact kept

theorem rootSlashes_tidy (path : Text) : rootSlashes (tidy path) = rootSlashes path := by
  have proper : ∀ component ∈ components path, IsComponent component :=
    isComponent_of_mem_components
  have kept := rootSlashes_rootSlashes_append path (isAbsolute_join proper)
  unfold tidy
  dsimp only
  split
  · rename_i empty
    have nothing := (List.append_eq_nil_iff.mp (List.isEmpty_iff.mp empty)).1
    rw [nothing]
    rfl
  · exact kept

@[simp] theorem normalize_normalize (path : Text) : normalize (normalize path) = normalize path := by
  have steps : resolveSteps (isAbsolute (normalize path)) (components (normalize path)) =
      resolveSteps (isAbsolute path) (components path) := by
    rw [← components_normalize, components_normalize_normalize, components_normalize]
  have unfolded (text : Text) : normalize text =
      if (rootSlashes text ++ Text.join ['/'] (resolveSteps (isAbsolute text)
        (components text))).isEmpty then here
      else rootSlashes text ++ Text.join ['/'] (resolveSteps (isAbsolute text)
        (components text)) := rfl
  rw [unfolded (normalize path), rootSlashes_normalize, steps, ← unfolded]

/-! ## Transplanted directories -/

/-- The steps of a normalised relative path are its components. -/
theorem steps_normalize {path : Text} (relative : isAbsolute path = false) :
    steps (normalize path) = components (normalize path) := by
  by_cases nothing : components (normalize path) = []
  · have bare : normalize path = here := by
      rw [components_normalize] at nothing
      unfold normalize
      rw [nothing]
      simp [rootSlashes_of_relative relative, Text.join]
    rw [nothing, steps, if_pos bare]
  · have written : normalize path = Text.join ['/'] (components (normalize path)) := by
      rw [components_normalize] at nothing ⊢
      have slashes := rootSlashes_of_relative relative
      have something : Text.join ['/'] (resolveSteps (isAbsolute path) (components path)) ≠ [] := by
        intro empty
        apply nothing
        rw [← components_join_slash (isComponent_resolved path), empty]
        rfl
      unfold normalize
      dsimp only
      rw [slashes]
      exact if_neg (by simpa using something)
    have different : normalize path ≠ here := by
      intro same
      apply nothing
      rw [same]
      rfl
    rw [steps, if_neg different]
    conv => lhs; rw [written]
    apply Text.splitOn_join
    · intro part member
      exact (isComponent_of_mem_components part member).2.2
    · exact nothing

theorem steps_of_isAbsolute {path : Text} (absolute : isAbsolute path = true) :
    ∃ rest, steps path = [] :: rest := by
  cases path with
  | nil => simp [isAbsolute] at absolute
  | cons character rest =>
      have same : character = '/' := by simpa [isAbsolute] using absolute
      subst same
      have different : '/' :: rest ≠ here := by simp [here]
      exact ⟨Text.splitOn '/' rest, by rw [steps, if_neg different, Text.splitOn_cons_self]⟩

theorem joinAll_names {names : List Text} (proper : ∀ name ∈ names, IsComponent name)
    (base : Text) :
    components (joinAll base names) = components base ++ names ∧
      (names ≠ [] → base ≠ [] → isAbsolute (joinAll base names) = isAbsolute base) := by
  induction names generalizing base with
  | nil => simp [joinAll]
  | cons name rest induction =>
      have first := proper name List.mem_cons_self
      have relative : isAbsolute name = false := by
        have alone : isAbsolute (Text.join ['/'] [name]) = false :=
          isAbsolute_join (by simpa using first)
        exact alone
      have itself : components name = [name] := by
        have alone : components (Text.join ['/'] [name]) = [name] :=
          components_join_slash (by simpa using first)
        exact alone
      obtain ⟨parts, kept⟩ := induction
        (fun other member => proper other (List.mem_cons_of_mem name member)) (join base name)
      have unfolded : joinAll base (name :: rest) = joinAll (join base name) rest := rfl
      constructor
      · rw [unfolded, parts, components_join, relative, itself]
        simp
      · intro _ something
        have step : isAbsolute (join base name) = isAbsolute base := by
          have nonempty : base.isEmpty = false := by simpa using something
          unfold join
          rw [relative, nonempty]
          cases base with
          | nil => exact absurd rfl something
          | cons character others =>
              simp only [Bool.or_self, Bool.false_eq_true, if_false]
              split <;> rfl
        rw [unfolded]
        by_cases last : rest = []
        · subst last
          exact step
        · have inner : join base name ≠ [] := by
            intro empty
            have sizes := congrArg List.length empty
            unfold join at sizes
            split at sizes
            · exact first.1 (by simpa using sizes)
            · split at sizes <;> simp at sizes
              exact something sizes.1
          rw [kept last inner, step]

theorem components_join_name {base name : Text} (proper : IsComponent name)
    (something : base ≠ []) :
    components (join base name) = components base ++ [name] ∧
      isAbsolute (join base name) = isAbsolute base := by
  have alone : ∀ part ∈ [name], IsComponent part := by
    simpa using proper
  obtain ⟨parts, kept⟩ := joinAll_names alone base
  exact ⟨parts, kept (by simp) something⟩

theorem components_within_append {root base path : Text} {names : List Text}
    (kind : isAbsolute path = isAbsolute base) (parts : components path = components base ++ names) :
    components (within root path) = components (within root base) ++ names := by
  rw [within, within, components_tidy, components_tidy, components_join, components_join, kind,
    parts]
  cases isAbsolute base with
  | true => rfl
  | false => simp

/-- A relative root and a directory below it, given by their components: the
directory is transplanted with its names. -/
theorem components_of_transplant {root target directory packagePath : Text}
    {names : List Text} (proper : ∀ name ∈ names, IsComponent name) (noUp : up ∉ names)
    (relative : isAbsolute root = false) (below : isAbsolute directory = false)
    (inside : components directory = components (normalize root) ++ names)
    (placed : transplant root target directory = .ok packagePath) :
    components packagePath = components (normalize target) ++ names ∧
      isAbsolute packagePath = isAbsolute target ∧
      (names = [] → packagePath = normalize target) := by
  have directorySteps : steps (normalize directory) = components (normalize root) ++ names := by
    rw [steps_normalize below, components_normalize, below, inside, resolveSteps_append noUp]
    have resolved := isResolved_components_normalize root
    rw [relative] at resolved
    rw [resolveSteps_of_isResolved resolved]
  have nested : below? (normalize root) (normalize directory) = some names := by
    unfold below?
    rw [steps_normalize relative, directorySteps]
    simp
  unfold transplant at placed
  dsimp only at placed
  rw [nested] at placed
  cases names with
  | nil =>
      have same : normalize target = packagePath := Except.ok.inj placed
      subst same
      exact ⟨by simp, isAbsolute_normalize target, fun _ => rfl⟩
  | cons name rest =>
      have same : normalize (joinAll (normalize target) (name :: rest)) = packagePath :=
        Except.ok.inj placed
      subst same
      obtain ⟨parts, kept⟩ := joinAll_names proper (normalize target)
      have absolute := kept (by simp) (normalize_ne_nil target)
      rw [isAbsolute_normalize] at absolute
      refine ⟨?_, ?_, by simp⟩
      · rw [components_normalize, absolute, parts, resolveSteps_append noUp]
        rw [resolveSteps_of_isResolved (isResolved_components_normalize target)]
      · rw [isAbsolute_normalize, absolute]

theorem ne_nil_of_transplant {root target directory packagePath : Text}
    (placed : transplant root target directory = .ok packagePath) : packagePath ≠ [] := by
  unfold transplant at placed
  dsimp only at placed
  split at placed
  · simp at placed
  · rw [← Except.ok.inj placed]
    exact normalize_ne_nil target
  · rw [← Except.ok.inj placed]
    exact normalize_ne_nil _

theorem normalize_of_transplant {root target directory packagePath : Text}
    (placed : transplant root target directory = .ok packagePath) :
    normalize packagePath = packagePath := by
  unfold transplant at placed
  dsimp only at placed
  split at placed
  · simp at placed
  · rw [← Except.ok.inj placed, normalize_normalize]
  · rw [← Except.ok.inj placed, normalize_normalize]

theorem transplant_of_isAbsolute {root directory : Text} (target : Text)
    (absolute : isAbsolute root = true) (below : isAbsolute directory = false) :
    ∃ fault, transplant root target directory = .error fault := by
  have normal : isAbsolute (normalize root) = true := by
    rw [isAbsolute_normalize, absolute]
  obtain ⟨rest, first⟩ := steps_of_isAbsolute normal
  have outside : below? (normalize root) (normalize directory) = none := by
    unfold below?
    dsimp only
    rw [first, steps_normalize below, if_neg]
    cases parts : components (normalize directory) with
    | nil => simp
    | cons part others =>
        have listed : part ∈ components (normalize directory) := by
          rw [parts]
          exact List.mem_cons_self
        have proper := isComponent_of_mem_components part listed
        intro nested
        have same := (List.cons_prefix_cons.mp (List.isPrefixOf_iff_prefix.mp nested)).1
        exact proper.1 same.symm
  unfold transplant
  dsimp only
  rw [outside]
  exact ⟨_, rfl⟩

end Path

end Scaffold
