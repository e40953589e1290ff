import Scaffold.Go.Lexer
import Scaffold.Module.Resolver
import Scaffold.Proofs.FreshName

/-!
# Imports of local packages are new or known

Resolving a package either answers with an import that is there, or with one
whose path and whose name are both new.
-/

namespace Scaffold

namespace Resolver

variable (resolver : Resolver) (directory declared : Text) (present : List Import)

theorem referenceName_freshImport (path : Text) :
    (freshImport path declared present).referenceName =
      FreshName.choose (Import.referenceName ⟨path, preferredName path declared⟩)
        (present.map Import.referenceName) := by
  rw [freshImport]
  split
  · rename_i same
    exact same.symm
  · rename_i changed
    have named := FreshName.choose_ne_nil changed
    rw [Import.referenceName, if_neg (by simpa using named)]

theorem path_freshImport (path : Text) :
    (freshImport path declared present).path = path := by
  rw [freshImport]
  split <;> rfl

/-- The import of a package is known already, or neither its path nor its name
is. -/
theorem resolve_mem_or_fresh :
    resolver.resolve directory declared present ∈ present ∨
      (∀ spec ∈ present,
        spec.path ≠ (resolver.resolve directory declared present).path) ∧
        (resolver.resolve directory declared present).referenceName ∉
          present.map Import.referenceName := by
  rw [resolve]
  split
  · rename_i spec found
    exact .inl (List.mem_of_find?_eq_some found)
  · rename_i absent
    refine .inr ⟨?_, ?_⟩
    · intro spec member
      rw [path_freshImport]
      simpa using List.find?_eq_none.mp absent spec member
    · rw [referenceName_freshImport]
      exact FreshName.choose_not_mem _ _

theorem path_resolve :
    (resolver.resolve directory declared present).path = resolver.importPath directory := by
  rw [resolve]
  split
  · rename_i spec found
    simpa using List.find?_some found
  · exact path_freshImport _ _ _

end Resolver

/-! ## Names of packages -/

namespace Go

/-- The name is an identifier other than the blank one. -/
structure IsPackageName (name : Text) : Prop where
  begins : name.head?.any startsName = true
  word : ∀ character ∈ name, continuesName character = true
  visible : name ≠ ['_']

instance (name : Text) : Decidable (IsPackageName name) :=
  decidable_of_iff (name.head?.any startsName = true ∧
      name.all continuesName = true ∧ name ≠ ['_'])
    ⟨fun ⟨begins, word, visible⟩ => ⟨begins, List.all_eq_true.mp word, visible⟩,
      fun proper => ⟨proper.begins, List.all_eq_true.mpr proper.word, proper.visible⟩⟩

/-- The name is spelled with letters, digits and low lines. -/
structure IsWord (name : Text) : Prop where
  named : name ≠ []
  word : ∀ character ∈ name, continuesName character = true

/-- The name can stand before a dot and is spelled with letters, digits and low
lines. -/
structure IsQualifier (name : Text) : Prop where
  named : name ≠ []
  word : ∀ character ∈ name, continuesName character = true
  visible : name ≠ ['_']

theorem IsPackageName.isQualifier {name : Text} (proper : IsPackageName name) :
    IsQualifier name where
  named := fun none => by simpa [none] using proper.begins
  word := proper.word
  visible := proper.visible

theorem continuesName_digit {number : Nat} :
    ∀ character ∈ Text.ofNat number, continuesName character = true := by
  intro character member
  have digit := Nat.isDigit_of_mem_toDigits (by decide) (by decide) member
  simp only [Char.isDigit, Bool.and_eq_true, decide_eq_true_eq] at digit
  have lower : 48 ≤ character.toNat := digit.1
  have upper : character.toNat ≤ 57 := digit.2
  have small : character.toNat < 128 := by omega
  simp [continuesName, Text.isDigit, Text.isAsciiDigit, small, lower, upper]

theorem IsWord.append {first second : Text} (begins : IsWord first)
    (ends : ∀ character ∈ second, continuesName character = true) :
    IsWord (first ++ second) where
  named := List.append_ne_nil_of_left_ne_nil begins.named _
  word := by
    intro character member
    rcases List.mem_append.mp member with own | added
    · exact begins.word character own
    · exact ends character added

theorem IsWord.numbered {name : Text} (word : IsWord name) (number : Nat) :
    IsWord (FreshName.numbered name number) :=
  word.append continuesName_digit

theorem IsQualifier.isWord {name : Text} (usable : IsQualifier name) : IsWord name :=
  ⟨usable.named, usable.word⟩

theorem IsQualifier.numbered {name : Text} (usable : IsQualifier name) (number : Nat) :
    IsQualifier (FreshName.numbered name number) where
  named := (usable.isWord.numbered number).named
  word := (usable.isWord.numbered number).word
  visible := by
    have first := List.length_pos_of_ne_nil usable.named
    have digits : 0 < (Text.ofNat number).length := List.length_pos_of_ne_nil Nat.toDigits_ne_nil
    intro same
    have length := congrArg List.length same
    rw [FreshName.numbered, List.length_append, List.length_singleton] at length
    omega

end Go

namespace Resolver

open Go (IsPackageName IsQualifier IsWord)

/-- A package is referred to by its declared name, with or without low lines. -/
theorem referenceName_preferred_cases (path : Text) {declared : Text} (named : declared ≠ []) :
    Import.referenceName ⟨path, preferredName path declared⟩ = declared ∨
      without '_' declared ≠ [] ∧
        Import.referenceName ⟨path, preferredName path declared⟩ = without '_' declared := by
  have reference (name : Text) : Import.referenceName ⟨path, name⟩ =
      if name = [] then Path.baseName path else name := by
    simp [Import.referenceName, Import.defaultName]
  have preferred : preferredName path declared =
      if declared = Path.baseName path then
        if without '_' declared = declared then [] else without '_' declared
      else declared := by
    unfold preferredName
    by_cases same : declared = Path.baseName path
    · simp [← same]
    · simp [same, named]
  rw [reference, preferred]
  by_cases same : declared = Path.baseName path
  · rw [if_pos same, ← same]
    by_cases clean : without '_' declared = declared
    · rw [if_pos clean, if_pos rfl]
      exact .inl rfl
    · rw [if_neg clean]
      split
      · exact .inl rfl
      · rename_i some
        exact .inr ⟨some, rfl⟩
  · rw [if_neg same, if_neg named]
    exact .inl rfl

theorem isQualifier_preferred (path : Text) {declared : Text} (proper : IsPackageName declared) :
    IsQualifier (Import.referenceName ⟨path, preferredName path declared⟩) := by
  have own := proper.isQualifier
  rcases referenceName_preferred_cases path own.named with same | ⟨some, same⟩
  · rw [same]
    exact own
  · rw [same]
    refine ⟨some, fun character member => own.word character (List.mem_of_mem_filter member), ?_⟩
    intro low
    have member : '_' ∈ without '_' declared := low ▸ List.mem_singleton_self '_'
    simpa using (List.mem_filter.mp member).2

theorem referenceName_freshImport_induction {good : Text → Prop} {path declared : Text}
    (preferred : good (Import.referenceName ⟨path, preferredName path declared⟩))
    (numbered : ∀ {name}, good name → ∀ index, good (FreshName.numbered name index))
    (present : List Import) : good (freshImport path declared present).referenceName := by
  rw [referenceName_freshImport]
  by_cases changed : FreshName.choose (Import.referenceName ⟨path, preferredName path declared⟩)
      (present.map Import.referenceName) = Import.referenceName ⟨path, preferredName path declared⟩
  · rw [changed]
    exact preferred
  · obtain ⟨index, found⟩ := FreshName.exists_numbered_of_choose_ne changed
    rw [found]
    exact numbered preferred index

theorem isQualifier_freshImport (path : Text) {declared : Text} (proper : IsPackageName declared)
    (present : List Import) : IsQualifier (freshImport path declared present).referenceName :=
  referenceName_freshImport_induction (isQualifier_preferred path proper) IsQualifier.numbered
    present

theorem isWord_freshImport (path : Text) {declared : Text} (word : IsWord declared)
    (present : List Import) : IsWord (freshImport path declared present).referenceName := by
  refine referenceName_freshImport_induction ?_ IsWord.numbered present
  rcases referenceName_preferred_cases path word.named with same | ⟨some, same⟩
  · rw [same]
    exact word
  · rw [same]
    exact ⟨some, fun character member => word.word character (List.mem_of_mem_filter member)⟩

end Resolver

end Scaffold
