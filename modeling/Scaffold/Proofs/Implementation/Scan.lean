import Mathlib.Data.List.Basic
import Scaffold.Implementation.Scan
import Scaffold.Proofs.Attempt
import Scaffold.Proofs.Sorting

/-!
# Files that a scan names

Every file that a scan gives to an implementation has the name of a source file:
it is one of the files that were read, or the file of a new backing type.
-/

namespace Scaffold

namespace PackageFacts

/-- The implementation of a contract belongs to the package, whatever file it
goes to. -/
theorem implementation_eq (packageName packagePath : Text) (facts : PackageFacts)
    (contract : Contract) :
    (facts.implementation packageName packagePath contract).contract = contract ∧
      (facts.implementation packageName packagePath contract).packageName = packageName ∧
      (facts.implementation packageName packagePath contract).packagePath = packagePath := by
  unfold implementation
  split <;> exact ⟨rfl, rfl, rfl⟩

theorem contract_implementation (packageName packagePath : Text) (facts : PackageFacts)
    (contract : Contract) :
    (facts.implementation packageName packagePath contract).contract = contract :=
  (facts.implementation_eq packageName packagePath contract).1

theorem isNew_implementation (packageName packagePath : Text) (facts : PackageFacts)
    (contract : Contract) :
    (facts.implementation packageName packagePath contract).isNew =
      (facts.fileOf? contract.backingName).isNone := by
  unfold implementation
  split <;> simp_all

theorem existing_implementation (packageName packagePath : Text) (facts : PackageFacts)
    (contract : Contract) :
    (facts.implementation packageName packagePath contract).existing =
      if (facts.fileOf? contract.backingName).isSome then
        itemsUnder contract.backingName facts.methods
      else [] := by
  unfold implementation
  split <;> simp_all

theorem mem_declare {fileName : Text} {entry : Text × Text} (types : List Text) :
    ∀ known, entry ∈ declare fileName types known → entry ∈ known ∨ entry.2 = fileName := by
  induction types with
  | nil => exact fun _ member => .inl member
  | cons type rest induction =>
      intro known member
      rcases induction _ member with now | same
      · dsimp only at now
        split at now
        · exact .inl now
        · rcases List.mem_append.mp now with old | new
          · exact .inl old
          · rw [List.mem_singleton.mp new]
            exact .inr rfl
      · exact .inr same

/-- Types are declared in the files that were read. -/
theorem mem_declaredIn_of_collect {packagePath : Text} {facts : PackageFacts}
    {entry : Text × Text} (files : List (Text × Bytes)) :
    ∀ known, (collect packagePath known files).result = .ok facts →
      entry ∈ facts.declaredIn →
        entry ∈ known.declaredIn ∨ ∃ content, (entry.2, content) ∈ files := by
  induction files with
  | nil =>
      intro known result member
      have same : known = facts := Except.ok.inj result
      exact .inl (same ▸ member)
  | cons file rest induction =>
      intro known result member
      obtain ⟨fileName, content⟩ := file
      rw [collect] at result
      split at result
      · exact absurd result (by simp [Attempt.fail])
      · rename_i shown _
        obtain ⟨_, _, result⟩ := Attempt.result_andThen_eq_ok_iff.mp result
        rcases induction _ result member with now | ⟨found, later⟩
        · rcases mem_declare shown.typeNames known.declaredIn now with old | same
          · exact .inl old
          · exact .inr ⟨content, same ▸ List.mem_cons_self⟩
        · exact .inr ⟨found, List.mem_cons_of_mem _ later⟩

end PackageFacts

namespace Contract

theorem endsWith_defaultFileName (contract : Contract) :
    Text.endsWith Go.sourceSuffix contract.defaultFileName = true := by
  apply List.isSuffixOf_iff_suffix.mpr
  refine ⟨Text.lower contract.shortName ++ ("_impl" : Text), ?_⟩
  rw [defaultFileName, List.append_assoc]
  exact congrArg _ (by decide)

end Contract

namespace Implementation

theorem map_name_missingMethods (qualifier : Text) (implementation : Implementation) :
    (implementation.missingMethods qualifier).map Method.name =
      implementation.contract.methodNames.filter fun name =>
        !implementation.existing.contains name := by
  rw [missingMethods, List.map_map, Contract.methodNames, List.filter_map]
  rfl

theorem isSourceName_of_mem_sourceFiles {disk : Disk} {directory : Text} :
    ∀ file ∈ sourceFiles disk directory, Go.isSourceName file.1 = true := by
  intro file member
  unfold sourceFiles at member
  split at member
  · split at member
    · exact absurd member List.not_mem_nil
    · exact (List.mem_filter.mp ((Sorting.mem_sort _).mp member)).2
  · exact absurd member List.not_mem_nil

end Implementation

namespace PackageFacts

theorem endsWith_fileName_implementation
    {disk : Disk} {directory packagePath packageName : Text} {facts : PackageFacts}
    (scanned : (collect packagePath {} (Implementation.sourceFiles disk directory)).result =
      .ok facts) (contract : Contract) :
    Text.endsWith Go.sourceSuffix
      (facts.implementation packageName packagePath contract).fileName = true := by
  unfold implementation
  split
  · rename_i fileName declared
    obtain ⟨entry, found, rfl⟩ := Option.map_eq_some_iff.mp declared
    rcases mem_declaredIn_of_collect _ _ scanned (List.mem_of_find?_eq_some found) with
      nothing | ⟨content, read⟩
    · exact absurd nothing List.not_mem_nil
    · exact (Bool.and_eq_true_iff.mp
        (Implementation.isSourceName_of_mem_sourceFiles _ read)).1
  · exact contract.endsWith_defaultFileName

end PackageFacts

end Scaffold
