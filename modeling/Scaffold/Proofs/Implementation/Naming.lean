import Scaffold.Proofs.FreshName
import Scaffold.Proofs.Go.Identifiers
import Scaffold.Proofs.Implementation.StubText

/-!
# How the entries of a list are named

Contexts and errors get names that are not taken, entries with a name keep it, and
the others become blank.  So the names of a list repeat only if names that are kept
do.
-/

namespace Scaffold

namespace Naming

/-! ## Names in a list -/

/-- The names by which something can be referred to: those that are neither missing nor
blank. -/
def bindings (parameters : List Parameter) : List Text :=
  (parameters.filter fun parameter => parameter.isNamed && parameter.name != blank).map
    Parameter.name

/-- The names of contexts and errors. -/
def generatedNames (parameters : List Parameter) : List Text :=
  (parameters.filter isGenerated).map Parameter.name

/-- The names that generated code gives, before numbers are put behind them. -/
def generatedBases : List Text :=
  [contextName, errorName]

variable {parameter : Parameter} {parameters : List Parameter} {taken reserved : List Text}
  {name : Text}

theorem mem_bindings_iff :
    name ∈ bindings parameters ↔
      ∃ parameter ∈ parameters, parameter.isNamed = true ∧ parameter.name ≠ blank ∧
        parameter.name = name := by
  simp [bindings, and_assoc]

theorem mem_keptNames_iff :
    name ∈ keptNames parameters ↔
      ∃ parameter ∈ parameters, parameter.isNamed = true ∧ parameter.name ≠ blank ∧
        isGenerated parameter = false ∧ parameter.name = name := by
  simp [keptNames, and_assoc]

theorem mem_generatedNames_iff :
    name ∈ generatedNames parameters ↔
      ∃ parameter ∈ parameters, isGenerated parameter = true ∧ parameter.name = name := by
  simp [generatedNames, and_assoc]

theorem keptNames_sublist_bindings (parameters : List Parameter) :
    List.Sublist (keptNames parameters) (bindings parameters) := by
  refine List.Sublist.map Parameter.name ?_
  refine List.monotone_filter_right parameters fun parameter kept => ?_
  simp only [Bool.and_eq_true] at kept ⊢
  exact kept.1

theorem bindings_subset_names (parameters : List Parameter) :
    bindings parameters ⊆ names parameters := by
  intro name member
  obtain ⟨parameter, listed, named, -, rfl⟩ := mem_bindings_iff.mp member
  exact List.mem_map_of_mem (List.mem_filter.mpr ⟨listed, named⟩)

/-! ## Entries of a named list -/

/-- How an entry of a list comes to its name, where some names are taken. -/
inductive IsNamedFrom (taken : List Text) (parameters : List Parameter) (parameter : Parameter) :
    Prop where
  /-- A context or an error gets a free name. -/
  | generated {base} {others : List Text} (kind : isGenerated parameter = true)
      (known : base ∈ generatedBases) (more : taken ⊆ others)
      (chosen : parameter.name = FreshName.choose base others)
  /-- Another entry keeps the name that it has. -/
  | kept (kind : isGenerated parameter = false) (named : parameter.isNamed = true)
      (member : parameter ∈ parameters)
  /-- The rest becomes blank. -/
  | blanked (kind : isGenerated parameter = false) (unnamed : parameter.name = blank)

theorem IsNamedFrom.cons {first : Parameter} {more : List Text} (wider : taken ⊆ more)
    (origin : IsNamedFrom more parameters parameter) :
    IsNamedFrom taken (first :: parameters) parameter := by
  cases origin with
  | generated kind known more chosen =>
      exact .generated kind known (List.Subset.trans wider more) chosen
  | kept kind named member => exact .kept kind named (List.mem_cons_of_mem _ member)
  | blanked kind unnamed => exact .blanked kind unnamed

theorem isNamedFrom_of_mem (member : parameter ∈ nameEntries taken parameters) :
    IsNamedFrom taken parameters parameter := by
  induction parameters generalizing taken with
  | nil => cases member
  | cons first rest induction =>
      rw [nameEntries] at member
      split at member
      · rename_i kind
        rcases List.mem_cons.mp member with rfl | later
        · refine .generated kind ?_ (List.Subset.refl taken) rfl
          split <;> simp [generatedBases]
        · exact (induction later).cons (List.subset_cons_self _ _)
      · rename_i kind
        have plain : isGenerated first = false := Bool.not_eq_true _ ▸ kind
        split at member
        · rename_i named
          rcases List.mem_cons.mp member with rfl | later
          · exact .kept plain named List.mem_cons_self
          · exact (induction later).cons (List.Subset.refl taken)
        · rcases List.mem_cons.mp member with rfl | later
          · exact .blanked plain rfl
          · exact (induction later).cons (List.Subset.refl taken)

theorem isBinding_choose {base : Text} (known : base ∈ generatedBases) (others : List Text) :
    FreshName.choose base others ≠ [] ∧ FreshName.choose base others ≠ blank := by
  have long : ∀ base ∈ generatedBases, 3 ≤ base.length := by decide
  have length := (long base known).trans (FreshName.isPrefix_choose base others).length_le
  constructor
  · intro none
    rw [none] at length
    simp at length
  · intro low
    rw [low] at length
    simp [blank] at length

theorem isIdentifier_choose {base : Text} (known : base ∈ generatedBases) (others : List Text) :
    Go.IsIdentifier (FreshName.choose base others) := by
  have proper : ∀ base ∈ generatedBases, Go.IsIdentifier base ∧
      ∀ entry ∈ Go.keywords, ¬ base <+: entry.1 := by
    decide
  exact (proper base known).1.choose (proper base known).2 others

theorem mem_bindings_nameEntries (member : name ∈ bindings (nameEntries taken parameters)) :
    name ∈ keptNames parameters ∨
      name ∈ generatedNames (nameEntries taken parameters) ∧ name ∉ taken := by
  obtain ⟨parameter, listed, -, visible, rfl⟩ := mem_bindings_iff.mp member
  cases isNamedFrom_of_mem listed with
  | generated kind known more chosen =>
      refine .inr ⟨mem_generatedNames_iff.mpr ⟨parameter, listed, kind, rfl⟩, fun old => ?_⟩
      exact FreshName.choose_not_mem _ _ (chosen ▸ more old)
  | kept kind named old =>
      exact .inl (mem_keptNames_iff.mpr ⟨parameter, old, named, visible, kind, rfl⟩)
  | blanked _ unnamed => exact absurd unnamed visible

theorem bindings_cons_of_visible (named : parameter.isNamed = true)
    (visible : parameter.name ≠ blank) :
    bindings (parameter :: parameters) = parameter.name :: bindings parameters := by
  simp [bindings, named, visible]

theorem bindings_cons_of_blank (unnamed : parameter.name = blank) :
    bindings (parameter :: parameters) = bindings parameters := by
  simp [bindings, unnamed]

theorem keptNames_cons_of_kept (named : parameter.isNamed = true)
    (visible : parameter.name ≠ blank) (kind : isGenerated parameter = false) :
    keptNames (parameter :: parameters) = parameter.name :: keptNames parameters := by
  simp [keptNames, named, visible, kind]

theorem keptNames_sublist_cons :
    List.Sublist (keptNames parameters) (keptNames (parameter :: parameters)) :=
  ((List.sublist_cons_self parameter parameters).filter _).map Parameter.name

/-- Names of contexts and errors are different from each other and from kept ones. -/
theorem nodup_bindings_nameEntries (distinct : (keptNames parameters).Nodup)
    (known : keptNames parameters ⊆ taken) :
    (bindings (nameEntries taken parameters)).Nodup := by
  fun_induction nameEntries taken parameters with
  | case1 taken => exact List.nodup_nil
  | case2 taken first rest kind name induction =>
      have inside : keptNames rest ⊆ taken :=
        List.Subset.trans keptNames_sublist_cons.subset known
      have proper : name ≠ [] ∧ name ≠ blank := isBinding_choose (by split <;> decide) taken
      rw [bindings_cons_of_visible (by simpa [Parameter.isNamed] using proper.1) proper.2]
      refine List.nodup_cons.mpr ⟨fun again => ?_, induction
        (distinct.sublist keptNames_sublist_cons) (List.Subset.trans inside (List.subset_cons_self _ _))⟩
      rcases mem_bindings_nameEntries again with kept | ⟨-, fresh⟩
      · exact FreshName.choose_not_mem _ _ (inside kept)
      · exact fresh List.mem_cons_self
  | case3 taken first rest kind named induction =>
      have later := induction (distinct.sublist keptNames_sublist_cons)
        (List.Subset.trans keptNames_sublist_cons.subset known)
      by_cases unseen : first.name = blank
      · rwa [bindings_cons_of_blank unseen]
      · rw [keptNames_cons_of_kept named unseen (Bool.not_eq_true _ ▸ kind)] at distinct known
        rw [bindings_cons_of_visible named unseen]
        refine List.nodup_cons.mpr ⟨fun again => ?_, later⟩
        rcases mem_bindings_nameEntries again with kept | ⟨-, fresh⟩
        · exact (List.nodup_cons.mp distinct).1 kept
        · exact fresh (known List.mem_cons_self)
  | case4 taken first rest kind unnamed induction =>
      rw [bindings_cons_of_blank rfl]
      exact induction (distinct.sublist keptNames_sublist_cons)
        (List.Subset.trans keptNames_sublist_cons.subset known)

/-! ## Normalized lists -/

theorem plain_of_needsNames_eq_false (bare : needsNames parameters = false) :
    ∀ parameter ∈ parameters, isGenerated parameter = false ∧ parameter.isNamed = false := by
  simpa [needsNames] using bare

theorem normalize_of_needsNames (needed : needsNames parameters = true) :
    normalize reserved parameters =
      nameEntries (reserved ++ keptNames parameters) parameters :=
  if_pos needed

theorem normalize_of_bare (bare : needsNames parameters = false) :
    normalize reserved parameters = parameters :=
  if_neg (by rw [bare]; exact Bool.false_ne_true)

theorem bindings_of_bare (bare : needsNames parameters = false) : bindings parameters = [] := by
  refine List.eq_nil_iff_forall_not_mem.mpr fun name member => ?_
  obtain ⟨parameter, listed, named, -⟩ := mem_bindings_iff.mp member
  rw [(plain_of_needsNames_eq_false bare parameter listed).2] at named
  cases named

theorem nodup_bindings_normalize (distinct : (keptNames parameters).Nodup) :
    (bindings (normalize reserved parameters)).Nodup := by
  cases needed : needsNames parameters with
  | true =>
      rw [normalize_of_needsNames needed]
      exact nodup_bindings_nameEntries distinct (List.subset_append_right _ _)
  | false =>
      rw [normalize_of_bare needed, bindings_of_bare needed]
      exact List.nodup_nil

theorem exists_of_mem_generatedNames (member : name ∈ generatedNames (normalize reserved parameters)) :
    ∃ base ∈ generatedBases, ∃ others, reserved ⊆ others ∧ name = FreshName.choose base others := by
  obtain ⟨parameter, listed, isContextOrError, rfl⟩ := mem_generatedNames_iff.mp member
  cases needed : needsNames parameters with
  | true =>
      rw [normalize_of_needsNames needed] at listed
      cases isNamedFrom_of_mem listed with
      | generated _ known more chosen =>
          exact ⟨_, known, _, List.Subset.trans (List.subset_append_left _ _) more, chosen⟩
      | kept kind | blanked kind =>
          rw [kind] at isContextOrError
          cases isContextOrError
  | false =>
      rw [normalize_of_bare needed] at listed
      rw [(plain_of_needsNames_eq_false needed parameter listed).1] at isContextOrError
      cases isContextOrError

theorem not_mem_of_mem_generatedNames
    (member : name ∈ generatedNames (normalize reserved parameters)) : name ∉ reserved := by
  obtain ⟨base, -, others, wider, rfl⟩ := exists_of_mem_generatedNames member
  exact fun old => FreshName.choose_not_mem base others (wider old)

theorem mem_nameEntries_of_kept (kind : isGenerated parameter = false)
    (named : parameter.isNamed = true) (member : parameter ∈ parameters) :
    parameter ∈ nameEntries taken parameters := by
  fun_induction nameEntries taken parameters with
  | case1 taken => cases member
  | case2 taken first rest generated name induction =>
      rcases List.mem_cons.mp member with rfl | later
      · rw [kind] at generated
        cases generated
      · exact List.mem_cons_of_mem _ (induction later)
  | case3 taken first rest _ _ induction =>
      rcases List.mem_cons.mp member with rfl | later
      · exact List.mem_cons_self
      · exact List.mem_cons_of_mem _ (induction later)
  | case4 taken first rest _ unnamed induction =>
      rcases List.mem_cons.mp member with rfl | later
      · exact absurd named unnamed
      · exact List.mem_cons_of_mem _ (induction later)

theorem mem_normalize_of_kept (kind : isGenerated parameter = false)
    (named : parameter.isNamed = true) (member : parameter ∈ parameters) :
    parameter ∈ normalize reserved parameters := by
  have needed : needsNames parameters = true :=
    List.any_eq_true.mpr ⟨parameter, member, by rw [named, Bool.or_true]⟩
  rw [normalize_of_needsNames needed]
  exact mem_nameEntries_of_kept kind named member

theorem mem_bindings_normalize_iff :
    name ∈ bindings (normalize reserved parameters) ↔
      name ∈ keptNames parameters ∨ name ∈ generatedNames (normalize reserved parameters) := by
  constructor
  · intro member
    cases needed : needsNames parameters with
    | true =>
        rw [normalize_of_needsNames needed] at member ⊢
        exact (mem_bindings_nameEntries member).imp_right And.left
    | false =>
        rw [normalize_of_bare needed, bindings_of_bare needed] at member
        cases member
  · rintro (kept | generated)
    · obtain ⟨parameter, member, named, visible, kind, rfl⟩ := mem_keptNames_iff.mp kept
      exact mem_bindings_iff.mpr
        ⟨parameter, mem_normalize_of_kept kind named member, named, visible, rfl⟩
    · obtain ⟨base, known, others, -, chosen⟩ := exists_of_mem_generatedNames generated
      obtain ⟨parameter, member, -, rfl⟩ := mem_generatedNames_iff.mp generated
      have proper := isBinding_choose known others
      rw [← chosen] at proper
      exact mem_bindings_iff.mpr
        ⟨parameter, member, by simpa [Parameter.isNamed] using proper.1, proper.2, rfl⟩

end Naming

end Scaffold
