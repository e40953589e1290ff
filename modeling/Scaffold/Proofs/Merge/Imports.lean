import Scaffold.Implementation.Merge

/-!
# The imports that a merge adds

The plan for a file keeps its implementations one by one.  What the additions
ask for is added path by path: a path that the file imports is left out, and of
several requests for one path only the first is taken.
-/

namespace Scaffold

namespace Addition

/-- What the stub of a method asks for. -/
theorem mem_methodImports {addition : Addition} {method : Method} {spec : Import} :
    spec ∈ addition.methodImports method ↔
      (Qualification.refersTo method.types addition.contractImport.referenceName = true ∧
          spec = addition.contractImport) ∨
        (method.hasContext = true ∧ (spec = libraries.context ∨ spec = libraries.tracing)) ∨
        (method.hasContext = true ∧ method.returnsError = true ∧ spec = libraries.codes) ∨
        (method.returnsError = true ∧ spec = libraries.errors) ∨
        (spec ∈ addition.implementation.contract.imports ∧
          spec.path ≠ addition.contractImport.path ∧
          Qualification.refersTo method.types spec.referenceName = true) := by
  simp only [methodImports, List.mem_append, List.mem_filter, Bool.and_eq_true, bne_iff_ne]
  cases method.hasContext <;> cases method.returnsError <;>
    cases Qualification.refersTo method.types addition.contractImport.referenceName <;>
    simp [or_assoc]

/-- What an addition asks for. -/
theorem mem_requiredImports {addition : Addition} {spec : Import} :
    spec ∈ addition.requiredImports ↔
      (addition.implementation.isNew = true ∧
          (spec = libraries.options ∨ spec = addition.contractImport)) ∨
        ∃ method ∈ addition.missing, spec ∈ addition.methodImports method := by
  rw [requiredImports, List.mem_append, List.mem_flatMap]
  cases addition.implementation.isNew <;> simp

end Addition

namespace Merge

/-! ## The plan -/

theorem map_implementation_plan
    (resolver : Resolver) (implementations : List Implementation) :
    ∀ known, (plan resolver known implementations).map Addition.implementation =
      implementations := by
  induction implementations with
  | nil => intro known; rfl
  | cons implementation rest induction =>
      intro known
      simp only [plan, List.map_cons]
      rw [induction]

/-- What is missing is written with the name under which the contract's package
is imported. -/
theorem missing_of_mem_plan
    {resolver : Resolver} {implementations : List Implementation} {addition : Addition} :
    ∀ {known}, addition ∈ plan resolver known implementations →
      addition.missing =
        addition.implementation.missingMethods addition.contractImport.referenceName := by
  induction implementations with
  | nil =>
      intro known member
      exact absurd member List.not_mem_nil
  | cons implementation rest induction =>
      intro known member
      simp only [plan, List.mem_cons] at member
      rcases member with rfl | later
      · rfl
      · exact induction later

/-- What is to be written into a file that has been read. -/
def additions (resolver : Resolver) (layout : Go.FileLayout)
    (implementations : List Implementation) : List Addition :=
  plan resolver layout.imports implementations

/-! ## New imports -/

/-- The imports that are asked for, in the order of the requests. -/
def required (resolver : Resolver) (layout : Go.FileLayout)
    (implementations : List Implementation) : List Import :=
  (additions resolver layout implementations).flatMap Addition.requiredImports

/-- The imports that a file gains. -/
def added (resolver : Resolver) (layout : Go.FileLayout)
    (implementations : List Implementation) : List Import :=
  newImports (layout.imports.map Import.path) (required resolver layout implementations)

@[simp] theorem newImports_nil (present : List Text) : newImports present [] = [] := rfl

theorem newImports_cons_of_mem
    {present : List Text} {spec : Import} {rest : List Import}
    (member : spec.path ∈ present) :
    newImports present (spec :: rest) = newImports present rest := by
  rw [newImports, if_pos member]

theorem newImports_cons_of_not_mem
    {present : List Text} {spec : Import} {rest : List Import}
    (absent : spec.path ∉ present) :
    newImports present (spec :: rest) = spec :: newImports (spec.path :: present) rest := by
  rw [newImports, if_neg absent]

/-- A new import is one that was asked for, and its path is not present. -/
theorem mem_newImports
    {required : List Import} {spec : Import} :
    ∀ {present}, spec ∈ newImports present required →
      spec ∈ required ∧ spec.path ∉ present := by
  induction required with
  | nil =>
      intro present member
      exact absurd member List.not_mem_nil
  | cons head rest induction =>
      intro present member
      by_cases known : head.path ∈ present
      · rw [newImports_cons_of_mem known] at member
        obtain ⟨asked, absent⟩ := induction member
        exact ⟨List.mem_cons_of_mem head asked, absent⟩
      · rw [newImports_cons_of_not_mem known] at member
        rcases List.mem_cons.mp member with rfl | later
        · exact ⟨List.mem_cons_self, known⟩
        · obtain ⟨asked, absent⟩ := induction later
          exact ⟨List.mem_cons_of_mem head asked,
            fun present => absent (List.mem_cons_of_mem head.path present)⟩

/-- For a path that is not present the first request is taken. -/
theorem mem_newImports_iff_find?
    {required : List Import} {spec : Import} :
    ∀ {present}, spec ∈ newImports present required ↔
      spec.path ∉ present ∧
        required.find? (fun other => other.path == spec.path) = some spec := by
  induction required with
  | nil => intro present; simp
  | cons head rest induction =>
      intro present
      by_cases known : head.path ∈ present
      · rw [newImports_cons_of_mem known, induction]
        constructor
        · rintro ⟨absent, found⟩
          have different : head.path ≠ spec.path := fun same => absent (same ▸ known)
          exact ⟨absent, by rw [List.find?_cons_of_neg (by simpa using different), found]⟩
        · rintro ⟨absent, found⟩
          have different : head.path ≠ spec.path := fun same => absent (same ▸ known)
          rw [List.find?_cons_of_neg (by simpa using different)] at found
          exact ⟨absent, found⟩
      · rw [newImports_cons_of_not_mem known, List.mem_cons, induction]
        by_cases same : head.path = spec.path
        · rw [List.find?_cons_of_pos (by simpa using same)]
          constructor
          · rintro (rfl | ⟨absent, _⟩)
            · exact ⟨known, rfl⟩
            · exact absurd (List.mem_cons.mpr (.inl same.symm)) absent
          · rintro ⟨_, found⟩
            exact .inl (Option.some.inj found).symm
        · rw [List.find?_cons_of_neg (by simpa using same)]
          constructor
          · rintro (rfl | ⟨absent, found⟩)
            · exact absurd rfl same
            · exact ⟨fun present => absent (List.mem_cons_of_mem head.path present), found⟩
          · rintro ⟨absent, found⟩
            refine .inr ⟨?_, found⟩
            intro member
            rcases List.mem_cons.mp member with equal | present
            · exact same equal.symm
            · exact absent present

/-! ## What has nothing to add -/

/-- The implementation has its backing type and all of its methods. -/
def IsComplete (implementation : Implementation) : Prop :=
  implementation.isNew = false ∧
    ∀ method ∈ implementation.contract.methods, method.name ∈ implementation.existing

theorem missingMethods_eq_nil_of_complete
    {implementation : Implementation} (complete : IsComplete implementation)
    (qualifier : Text) : implementation.missingMethods qualifier = [] := by
  unfold Implementation.missingMethods
  rw [List.map_eq_nil_iff, List.filter_eq_nil_iff]
  intro method member
  simpa using complete.2 method member

variable {resolver : Resolver} {known : List Import} {implementations : List Implementation}

theorem additions_of_complete
    (complete : ∀ implementation ∈ implementations, IsComplete implementation)
    {addition : Addition} (member : addition ∈ plan resolver known implementations) :
    addition.implementation.isNew = false ∧ addition.missing = [] := by
  have planned : addition.implementation ∈ implementations := by
    rw [← map_implementation_plan resolver implementations known]
    exact List.mem_map_of_mem member
  have whole := complete addition.implementation planned
  refine ⟨whole.1, ?_⟩
  rw [missing_of_mem_plan member]
  exact missingMethods_eq_nil_of_complete whole _

theorem requiredImports_eq_nil {addition : Addition}
    (old : addition.implementation.isNew = false) (nothing : addition.missing = []) :
    addition.requiredImports = [] := by
  simp [Addition.requiredImports, old, nothing]

theorem requiredImports_of_complete
    (complete : ∀ implementation ∈ implementations, IsComplete implementation) :
    (plan resolver known implementations).flatMap Addition.requiredImports = [] := by
  rw [List.flatMap_eq_nil_iff]
  intro addition member
  obtain ⟨old, nothing⟩ := additions_of_complete complete member
  exact requiredImports_eq_nil old nothing

theorem dependencyBlocks_of_complete
    (complete : ∀ implementation ∈ implementations, IsComplete implementation) :
    (plan resolver known implementations).flatMap Addition.dependencyBlocks = [] := by
  rw [List.flatMap_eq_nil_iff]
  intro addition member
  obtain ⟨old, _⟩ := additions_of_complete complete member
  simp [Addition.dependencyBlocks, old]

theorem stubs_of_complete
    (complete : ∀ implementation ∈ implementations, IsComplete implementation) :
    (plan resolver known implementations).flatMap Addition.stubs = [] := by
  rw [List.flatMap_eq_nil_iff]
  intro addition member
  obtain ⟨_, nothing⟩ := additions_of_complete complete member
  simp [Addition.stubs, nothing]

/-- A file whose implementations are all complete keeps its text, and nothing in
it is new. -/
theorem complete_of_complete
    (complete : ∀ implementation ∈ implementations, IsComplete implementation)
    (path previous : Text) (layout : Go.FileLayout) :
    Merge.complete resolver path layout (some previous) implementations =
      { path := path, text := previous, previous? := some previous, newTypes := 0,
        newMethods := 0 } := by
  unfold Merge.complete
  simp only [requiredImports_of_complete complete, dependencyBlocks_of_complete complete,
    stubs_of_complete complete]
  rfl

end Merge

end Scaffold
