import Mathlib.Data.List.Basic
import Scaffold.Path.Basic

/-!
# Components of paths

Splitting at a character takes a text apart between the occurrences of the
character.  The components of a path are the pieces between slashes that name
something, and neither tidying nor joining loses one of them.
-/

namespace Scaffold

namespace Text

theorem splitOn_ne_nil (separator : Char) (text : Text) : splitOn separator text ≠ [] := by
  cases text with
  | nil => exact List.cons_ne_nil _ _
  | cons character rest =>
      rw [splitOn]
      split
      · exact List.cons_ne_nil _ _
      · split <;> exact List.cons_ne_nil _ _

theorem splitOn_cons_self (separator : Char) (text : Text) :
    splitOn separator (separator :: text) = [] :: splitOn separator text := by
  rw [splitOn, if_pos rfl]

theorem splitOn_cons_of_ne {separator character : Char} (different : character ≠ separator)
    {text piece : Text} {pieces : List Text}
    (split : splitOn separator text = piece :: pieces) :
    splitOn separator (character :: text) = (character :: piece) :: pieces := by
  rw [splitOn, if_neg different, split]

theorem splitOn_append (separator : Char) (left right : Text) :
    splitOn separator (left ++ separator :: right) =
      splitOn separator left ++ splitOn separator right := by
  induction left with
  | nil => exact splitOn_cons_self separator right
  | cons character rest induction =>
      rw [List.cons_append]
      by_cases same : character = separator
      · subst same
        rw [splitOn_cons_self, splitOn_cons_self, induction]
        rfl
      · obtain ⟨piece, pieces, split⟩ :=
          List.exists_cons_of_ne_nil (splitOn_ne_nil separator rest)
        rw [splitOn_cons_of_ne same split,
          splitOn_cons_of_ne same (induction.trans (congrArg (· ++ _) split))]
        rfl

theorem splitOn_of_not_mem {separator : Char} {text : Text} (absent : separator ∉ text) :
    splitOn separator text = [text] := by
  induction text with
  | nil => rfl
  | cons character rest induction =>
      have different : character ≠ separator := fun same => absent (same ▸ List.mem_cons_self)
      exact splitOn_cons_of_ne different
        (induction fun member => absent (List.mem_cons_of_mem character member))

theorem not_mem_of_mem_splitOn {separator : Char} {text : Text} :
    ∀ piece ∈ splitOn separator text, separator ∉ piece := by
  induction text with
  | nil =>
      intro piece member
      rw [List.mem_singleton.mp member]
      exact List.not_mem_nil
  | cons character rest induction =>
      intro piece member
      by_cases same : character = separator
      · subst same
        rw [splitOn_cons_self] at member
        rcases List.mem_cons.mp member with rfl | later
        · exact List.not_mem_nil
        · exact induction piece later
      · obtain ⟨first, pieces, split⟩ :=
          List.exists_cons_of_ne_nil (splitOn_ne_nil separator rest)
        rw [splitOn_cons_of_ne same split] at member
        rw [split] at induction
        rcases List.mem_cons.mp member with rfl | later
        · rintro (_ | ⟨_, inside⟩)
          · exact same rfl
          · exact induction first List.mem_cons_self inside
        · exact induction piece (List.mem_cons_of_mem first later)

theorem exists_splitOn_append {separator : Char} {ending : Text} (absent : separator ∉ ending)
    (text : Text) :
    ∃ pieces last, splitOn separator (text ++ ending) = pieces ++ [last ++ ending] := by
  induction text with
  | nil => exact ⟨[], [], splitOn_of_not_mem absent⟩
  | cons character rest induction =>
      obtain ⟨pieces, last, split⟩ := induction
      rw [List.cons_append]
      by_cases same : character = separator
      · subst same
        exact ⟨[] :: pieces, last, by rw [splitOn_cons_self, split]; rfl⟩
      · cases pieces with
        | nil => exact ⟨[], character :: last, splitOn_cons_of_ne same split⟩
        | cons first pieces =>
            exact ⟨(character :: first) :: pieces, last, splitOn_cons_of_ne same split⟩

theorem splitOn_join {separator : Char} {pieces : List Text}
    (clean : ∀ piece ∈ pieces, separator ∉ piece) (something : pieces ≠ []) :
    splitOn separator (join [separator] pieces) = pieces := by
  induction pieces with
  | nil => exact absurd rfl something
  | cons piece rest induction =>
      cases rest with
      | nil => exact splitOn_of_not_mem (clean piece List.mem_cons_self)
      | cons next others =>
          rw [join, List.append_assoc, List.singleton_append, splitOn_append,
            splitOn_of_not_mem (clean piece List.mem_cons_self),
            induction (fun other member => clean other (List.mem_cons_of_mem piece member))
              (List.cons_ne_nil next others)]
          rfl

end Text

namespace Path

/-- The text is a component: it names something inside a directory. -/
def IsComponent (text : Text) : Prop :=
  text ≠ [] ∧ text ≠ here ∧ '/' ∉ text

instance (text : Text) : Decidable (IsComponent text) :=
  inferInstanceAs (Decidable (text ≠ [] ∧ text ≠ here ∧ '/' ∉ text))

theorem isComponent_of_mem_components {path : Text} :
    ∀ component ∈ components path, IsComponent component := by
  intro component member
  obtain ⟨piece, kept⟩ := List.mem_filter.mp member
  simp only [Bool.and_eq_true, Bool.not_eq_true', List.isEmpty_eq_false_iff, bne_iff_ne] at kept
  exact ⟨kept.1, kept.2, Text.not_mem_of_mem_splitOn component piece⟩

private theorem filter_isComponent {parts : List Text}
    (proper : ∀ component ∈ parts, IsComponent component) :
    (parts.filter fun component => !component.isEmpty && component != here) = parts := by
  rw [List.filter_eq_self]
  intro component member
  obtain ⟨nonempty, notHere, _⟩ := proper component member
  simp [nonempty, notHere]

theorem components_join_slash {parts : List Text}
    (proper : ∀ component ∈ parts, IsComponent component) :
    components (Text.join ['/'] parts) = parts := by
  by_cases nothing : parts = []
  · subst nothing
    rfl
  · rw [components, Text.splitOn_join (fun part member => (proper part member).2.2) nothing]
    exact filter_isComponent proper

@[simp] theorem components_slash_cons (path : Text) :
    components ('/' :: path) = components path := by
  rw [components, Text.splitOn_cons_self, components]
  rfl

theorem components_append_slash (left right : Text) :
    components (left ++ '/' :: right) = components left ++ components right := by
  rw [components, Text.splitOn_append, List.filter_append]
  rfl

/-- The components of a path inside a directory are those of both, unless the
path starts afresh. -/
theorem components_join (base path : Text) :
    components (join base path) =
      if isAbsolute path then components path else components base ++ components path := by
  unfold join
  cases isAbsolute path with
  | true => simp
  | false =>
      simp only [Bool.false_or, Bool.false_eq_true, if_false]
      split
      · rename_i empty
        rw [List.isEmpty_iff.mp empty]
        rfl
      · split
        · rename_i slash
          obtain ⟨start, whole⟩ : ∃ start, base = start ++ ['/'] := by
            have last : base.getLast? = some '/' := beq_iff_eq.mp slash
            exact ⟨List.dropLast base, (List.dropLast_append_getLast? '/' last).symm⟩
          rw [whole, List.append_assoc, List.singleton_append, components_append_slash,
            components_append_slash]
          simp [components, Text.splitOn]
        · exact components_append_slash base path

@[simp] theorem components_rootSlashes_append (path rest : Text) :
    components (rootSlashes path ++ rest) = components rest := by
  unfold rootSlashes
  split <;> simp [components_slash_cons]

@[simp] theorem components_tidy (path : Text) : components (tidy path) = components path := by
  have proper : ∀ component ∈ components path, IsComponent component :=
    isComponent_of_mem_components
  have kept : components (rootSlashes path ++ Text.join ['/'] (components path)) =
      components path := by
    rw [components_rootSlashes_append, components_join_slash proper]
  unfold tidy
  dsimp only
  split
  · rename_i empty
    rw [← kept]
    have nothing := List.isEmpty_iff.mp empty
    rw [show rootSlashes path ++ Text.join ['/'] (components path) = [] from nothing]
    rfl
  · exact kept

theorem isBelow_iff {base path : Text} :
    isBelow base path = true ↔
      rootSlashes base = rootSlashes path ∧ components base <+: components path := by
  rw [isBelow, Bool.and_eq_true, beq_iff_eq, List.isPrefixOf_iff_prefix]

/-- Two leading slashes are not one. -/
example : isBelow "/p" "/p/api" = true ∧ isBelow "/p" "//p/api" = false := by decide

theorem components_within {path : Text} (relative : isAbsolute path = false) (base : Text) :
    components (within base path) = components base ++ components path := by
  rw [within, components_tidy, components_join, relative]
  rfl

theorem exists_components_of_endsWith {ending path : Text} (proper : IsComponent ending)
    (undotted : ∀ start, start ++ ending ≠ here) (ends : Text.endsWith ending path = true) :
    ∃ parts last, components path = parts ++ [last ++ ending] := by
  obtain ⟨start, whole⟩ := List.isSuffixOf_iff_suffix.mp ends
  subst whole
  obtain ⟨pieces, last, split⟩ := Text.exists_splitOn_append proper.2.2 start
  refine ⟨pieces.filter fun component => !component.isEmpty && component != here, last, ?_⟩
  have nonempty : last ++ ending ≠ [] := List.append_ne_nil_of_right_ne_nil last proper.1
  rw [components, split, List.filter_append, List.filter_cons_of_pos, List.filter_nil]
  simp only [Bool.and_eq_true, Bool.not_eq_true', List.isEmpty_eq_false_iff, bne_iff_ne]
  exact ⟨nonempty, undotted last⟩

theorem endsWith_join {ending path : Text} (ends : Text.endsWith ending path = true)
    (base : Text) : Text.endsWith ending (join base path) = true := by
  obtain ⟨start, whole⟩ := List.isSuffixOf_iff_suffix.mp ends
  apply List.isSuffixOf_iff_suffix.mpr
  unfold join
  split
  · exact ⟨start, whole⟩
  · split
    · exact ⟨base ++ start, by rw [List.append_assoc, whole]⟩
    · exact ⟨base ++ '/' :: start, by rw [List.append_assoc, List.cons_append, whole]⟩

/-! ## Resolved paths -/

private theorem resolveStep_of_ne {absolute : Bool} {part : Text} (different : part ≠ up)
    (resolved : List Text) : resolveStep absolute resolved part = part :: resolved := by
  unfold resolveStep
  rw [if_neg different]

private theorem up_not_mem_resolveStep {resolved : List Text} (absent : up ∉ resolved)
    (part : Text) : up ∉ resolveStep true resolved part := by
  by_cases step : part = up
  · cases resolved with
    | nil => simp [resolveStep, step]
    | cons last rest =>
        have different : last ≠ up := fun same => absent (same ▸ List.mem_cons_self)
        simp only [resolveStep, if_pos step, if_neg different]
        exact fun member => absent (List.mem_cons_of_mem last member)
  · rw [resolveStep_of_ne step]
    rintro (_ | ⟨_, member⟩)
    · exact step rfl
    · exact absent member

private theorem mem_of_mem_resolveStep {resolved : List Text} {part first : Text}
    (member : part ∈ resolveStep true resolved first) : part ∈ resolved ∨ part = first := by
  by_cases step : first = up
  · subst step
    cases resolved with
    | nil => simp [resolveStep] at member
    | cons last rest =>
        by_cases stays : last = up
        · simp only [resolveStep, if_true, if_pos stays] at member
          rcases List.mem_cons.mp member with rfl | old
          · exact .inr rfl
          · exact .inl old
        · simp only [resolveStep, if_true, if_neg stays] at member
          exact .inl (List.mem_cons_of_mem last member)
  · rw [resolveStep_of_ne step] at member
    rcases List.mem_cons.mp member with rfl | old
    · exact .inr rfl
    · exact .inl old

private theorem up_not_mem_foldl (parts : List Text) :
    ∀ resolved, up ∉ resolved → up ∉ parts.foldl (resolveStep true) resolved := by
  induction parts with
  | nil => exact fun _ absent => absent
  | cons part rest induction =>
      intro resolved absent
      exact induction _ (up_not_mem_resolveStep absent part)

private theorem mem_of_mem_foldl {part : Text} (parts : List Text) :
    ∀ resolved, part ∈ parts.foldl (resolveStep true) resolved →
      part ∈ resolved ∨ part ∈ parts := by
  induction parts with
  | nil => exact fun _ member => .inl member
  | cons first rest induction =>
      intro resolved member
      rcases induction _ member with now | later
      · rcases mem_of_mem_resolveStep now with old | rfl
        · exact .inl old
        · exact .inr List.mem_cons_self
      · exact .inr (List.mem_cons_of_mem first later)

theorem components_resolve (current path : Text) :
    components (resolve current path) = resolveSteps true (components (join current path)) := by
  rw [resolve, components_slash_cons]
  apply components_join_slash
  intro part member
  rw [resolveSteps, List.mem_reverse] at member
  rcases mem_of_mem_foldl _ _ member with nothing | inside
  · exact absurd nothing List.not_mem_nil
  · exact isComponent_of_mem_components part inside

theorem up_not_mem_components_resolve (current path : Text) :
    up ∉ components (resolve current path) := by
  rw [components_resolve, resolveSteps, List.mem_reverse]
  exact up_not_mem_foldl _ _ List.not_mem_nil

end Path

end Scaffold
