import Scaffold.Proofs.Contract.Names
import Scaffold.Proofs.Disk.Building
import Scaffold.Proofs.Path.Normal

/-!
# Paths with the character zero

A path with the character zero in it is turned down before the operating system
sees it.  The character is inside one of the components, so nothing that was
ever made or written on a disk has it in its name.
-/

namespace Scaffold

namespace Text

theorem mem_iff_exists_splitOn {separator character : Char} (different : character ≠ separator)
    (text : Text) :
    character ∈ text ↔ ∃ piece ∈ splitOn separator text, character ∈ piece := by
  induction text with
  | nil => simp [splitOn]
  | cons first rest induction =>
      by_cases same : first = separator
      · subst same
        rw [splitOn_cons_self, List.mem_cons, or_iff_right different, induction]
        simp
      · obtain ⟨piece, pieces, split⟩ :=
          List.exists_cons_of_ne_nil (splitOn_ne_nil separator rest)
        rw [split] at induction
        rw [splitOn_cons_of_ne same split, List.mem_cons, induction]
        simp only [List.mem_cons, exists_eq_or_imp, or_assoc]

/-- Lowering does not make the character zero. -/
theorem null_not_mem_lowerChar {character : Char} (different : character ≠ Char.ofNat 0) :
    Char.ofNat 0 ∉ lowerChar character := by
  have plane : ∀ run ∈ loweringRuns, (0 : Int) < run.1 + run.2.2.2 ∧
      run.2.1 + run.2.2.2 < 0xD800 ∨
        (0xDFFF : Int) < run.1 + run.2.2.2 ∧ run.2.1 + run.2.2.2 < 0x110000 := by
    decide +kernel
  have code {number : Nat} (positive : 0 < number) (valid : number.isValidChar) :
      Char.ofNat 0 ≠ Char.ofNat number := by
    intro same
    have numbers : (Char.ofNat 0).toNat = (Char.ofNat number).toNat := congrArg Char.toNat same
    rw [Char.ofNat, Char.ofNat, dif_pos valid] at numbers
    have own : 0 = number := numbers
    omega
  unfold lowerChar
  dsimp only
  split
  · split
    · rename_i small bounds
      rw [List.mem_singleton]
      exact code (by omega) (.inl (by omega))
    · simpa using Ne.symm different
  · split
    · rw [List.mem_cons, List.mem_singleton, not_or]
      exact ⟨code (by omega) (by decide), code (by omega) (by decide)⟩
    · split
      · rename_i run found
        have fits := List.find?_some found
        simp only [Bool.and_eq_true, decide_eq_true_eq] at fits
        rw [List.mem_singleton]
        rcases plane run (List.mem_of_find?_eq_some found) with low | high
        · exact code (by omega) (.inl (by omega))
        · exact code (by omega) (.inr ⟨by omega, by omega⟩)
      · simpa using Ne.symm different

theorem null_not_mem_lower {text : Text} (absent : Char.ofNat 0 ∉ text) :
    Char.ofNat 0 ∉ lower text := by
  have after : ∀ seen, Char.ofNat 0 ∉ lowerAfter seen text := by
    induction text with
    | nil => simp [lowerAfter]
    | cons character rest induction =>
        rw [List.mem_cons, not_or] at absent
        intro seen
        rw [lowerAfter, List.mem_append, not_or]
        constructor
        · split
          · rw [List.mem_singleton]
            split <;> decide
          · exact null_not_mem_lowerChar (Ne.symm absent.1)
        · exact induction absent.2 _
  exact after []

end Text

namespace Path

theorem components_parent (path : Text) : components (parent path) = (components path).dropLast := by
  unfold parent
  split
  · rename_i nothing
    rw [components_tidy, List.reverse_eq_nil_iff.mp nothing]
    rfl
  · rename_i last rest reversed
    have whole : components path = rest.reverse ++ [last] := by
      rw [← List.reverse_reverse (components path), reversed, List.reverse_cons]
    have kept : components (rootSlashes path ++ Text.join ['/'] rest.reverse) = rest.reverse := by
      rw [components_rootSlashes_append, components_join_slash]
      intro part member
      apply isComponent_of_mem_components part
      rw [whole]
      exact List.mem_append_left _ member
    rw [whole, List.dropLast_concat]
    dsimp only
    split
    · rename_i empty
      have nothing : rootSlashes path ++ Text.join ['/'] rest.reverse = [] :=
        List.isEmpty_iff.mp empty
      rw [← kept, nothing]
      rfl
    · exact kept

end Path

namespace Disk

theorem holdsNull_eq_true_iff {path : Text} : holdsNull path = true ↔ Char.ofNat 0 ∈ path := by
  simp [holdsNull]

/-- A path holds the character zero exactly if one of its components does. -/
theorem holdsNull_eq_any_components (path : Text) :
    holdsNull path = (Path.components path).any holdsNull := by
  rw [Bool.eq_iff_iff, holdsNull_eq_true_iff, List.any_eq_true,
    Text.mem_iff_exists_splitOn (show Char.ofNat 0 ≠ '/' by decide)]
  constructor
  · rintro ⟨piece, listed, inside⟩
    refine ⟨piece, List.mem_filter.mpr ⟨listed, ?_⟩, holdsNull_eq_true_iff.mpr inside⟩
    have something : piece ≠ [] := List.ne_nil_of_mem inside
    have different : piece ≠ Path.here := by
      rintro rfl
      revert inside
      decide
    simp [something, different]
  · rintro ⟨part, listed, inside⟩
    exact ⟨part, (List.mem_filter.mp listed).1, holdsNull_eq_true_iff.mp inside⟩

theorem holdsNull_within (base path : Text) :
    holdsNull (Path.within base path) =
      (holdsNull path || !Path.isAbsolute path && holdsNull base) := by
  rw [holdsNull_eq_any_components (Path.within base path), Path.within, Path.components_tidy,
    Path.components_join, holdsNull_eq_any_components path, holdsNull_eq_any_components base]
  cases Path.isAbsolute path with
  | true => simp
  | false => simp [Bool.or_comm]

theorem holdsNull_parent_eq_of_components {path : Text} {parts : List Text} {last : Text}
    (split : Path.components path = parts ++ [last]) :
    holdsNull (Path.parent path) = parts.any holdsNull := by
  rw [holdsNull_eq_any_components, Path.components_parent, split, List.dropLast_concat]

/-! ## Names on a disk -/

/-- No name on the disk holds the character zero. -/
def IsNullFree (disk : Disk) : Prop :=
  ∀ item ∈ disk.entries, item.1.any holdsNull = false

instance (disk : Disk) : Decidable disk.IsNullFree :=
  inferInstanceAs (Decidable (∀ item ∈ disk.entries, _))

theorem mem_of_walk {disk : Disk} {components : List Text} :
    ∀ {location last}, disk.walk location components = .ok last →
      ∀ name ∈ last, name ∈ location ∨ name ∈ components := by
  induction components with
  | nil =>
      intro location last walked name member
      rw [← Except.ok.inj walked] at member
      exact .inl member
  | cons component rest induction =>
      intro location last walked name member
      rcases induction (walk_cons_eq_ok_iff.mp walked).2 name member with here | later
      · unfold stepTo at here
        split at here
        · exact .inl ((List.dropLast_sublist _).mem here)
        · rcases List.mem_append.mp here with old | new
          · exact .inl old
          · rw [List.mem_singleton.mp new]
            exact .inr List.mem_cons_self
      · exact .inr (List.mem_cons_of_mem component later)

variable {disk made : Disk}

theorem IsNullFree.put (free : disk.IsNullFree) {components : List Text} {location : Location}
    (clean : components.any holdsNull = false)
    (walked : disk.walk [] components = .ok location) (entry : Entry) :
    (disk.put location entry).IsNullFree := by
  intro item member
  rcases Builds.mem_replace member with rfl | old
  · rw [List.any_eq_false] at clean ⊢
    intro name inside
    rcases mem_of_walk walked name inside with nothing | part
    · exact absurd nothing List.not_mem_nil
    · exact clean name part
  · exact free item old

theorem IsNullFree.makeOne (free : disk.IsNullFree) {components : List Text}
    (clean : components.any holdsNull = false) (result : disk.makeOne components = .ok made) :
    made.IsNullFree := by
  unfold Disk.makeOne at result
  split at result
  · simp at result
  · rename_i location walked
    split at result
    · simp at result
    · rw [← Except.ok.inj result]
      exact free.put clean walked .directory

theorem IsNullFree.orPresent (free : disk.IsNullFree) {components : List Text}
    (clean : components.any holdsNull = false)
    (result : disk.orPresent components (disk.makeOne components) = .ok made) :
    made.IsNullFree := by
  cases one : disk.makeOne components with
  | ok found =>
      rw [one, Disk.orPresent, Except.ok.injEq] at result
      exact free.makeOne clean (result ▸ one)
  | error fault =>
      rw [one, Disk.orPresent] at result
      split at result
      · rw [← Except.ok.inj result]
        exact free
      · simp at result

theorem IsNullFree.makeAll (components : List Text) :
    ∀ {disk made : Disk}, disk.IsNullFree → components.any holdsNull = false →
      disk.makeAll components = .ok made → made.IsNullFree := by
  induction components with
  | nil =>
      intro disk made free _ result
      rw [Disk.makeAll, Except.ok.injEq] at result
      exact result ▸ free
  | cons last parents induction =>
      intro disk made free clean result
      have whole : (last :: parents).reverse.any holdsNull = false := by
        rw [List.any_reverse]
        exact clean
      rw [Disk.makeAll] at result
      split at result
      · split at result
        · simp at result
        · rename_i prepared before
          rw [List.any_cons, Bool.or_eq_false_iff] at clean
          exact (induction free clean.2 before).orPresent whole result
      · exact free.orPresent whole result

theorem IsNullFree.makeDirectories (free : disk.IsNullFree) {path : Text}
    (result : disk.makeDirectories path = .ok made) : made.IsNullFree := by
  unfold Disk.makeDirectories at result
  split at result
  · simp at result
  · rename_i clean
    rw [Bool.not_eq_true, holdsNull_eq_any_components] at clean
    exact free.makeAll _ (by rw [List.any_reverse]; exact clean) result

theorem IsNullFree.write (free : disk.IsNullFree) {path : Text} {content : Bytes}
    (result : disk.write path content = .ok made) : made.IsNullFree := by
  obtain ⟨possible, location, walked, _, _, rfl⟩ := write_eq_ok_iff.mp result
  have clean : holdsNull path = false := by
    unfold mayBeFile at possible
    cases present : holdsNull path with
    | false => rfl
    | true => simp [present] at possible
  rw [holdsNull_eq_any_components] at clean
  exact free.put clean walked _

theorem read_eq_nullCharacter_iff {path : Text} :
    disk.read path = .error .nullCharacter ↔ holdsNull path = true := by
  unfold Disk.read readAs
  split
  · rename_i present
    simp [present]
  · rename_i absent
    simp only [absent]
    split
    · simp
    · split <;> simp

theorem makeAll_ne_nullCharacter (components : List Text) :
    ∀ {disk : Disk}, disk.makeAll components ≠ .error .nullCharacter := by
  have orPresent {disk : Disk} {components : List Text} {attempt : Except PathError Disk} :
      disk.orPresent components attempt ≠ .error .nullCharacter := by
    unfold Disk.orPresent
    split
    · simp
    · dsimp only
      split <;> simp
  induction components with
  | nil => simp [Disk.makeAll]
  | cons last parents induction =>
      intro disk
      rw [Disk.makeAll]
      split
      · split
        · rename_i fault failed
          intro same
          exact induction (failed.trans (same ▸ rfl))
        · exact orPresent
      · exact orPresent

theorem makeDirectories_eq_nullCharacter_iff {path : Text} :
    disk.makeDirectories path = .error .nullCharacter ↔ holdsNull path = true := by
  unfold Disk.makeDirectories
  split
  · rename_i present
    simp [present]
  · rename_i absent
    simp [absent, makeAll_ne_nullCharacter]

theorem write_eq_nullCharacter_iff {path : Text} {content : Bytes} :
    disk.write path content = .error .nullCharacter ↔ holdsNull path = true := by
  unfold Disk.write writeAs
  split
  · rename_i present
    simp [present]
  · rename_i absent
    simp only [absent]
    split
    · simp
    · split
      · simp
      · split
        · simp
        · split
          · simp
          · split <;> simp

end Disk

namespace Contract

theorem holdsNull_defaultFileName {contract : Contract}
    (named : ∀ character ∈ contract.name, Go.continuesName character = true) :
    Disk.holdsNull contract.defaultFileName = false := by
  rw [← Bool.not_eq_true, Disk.holdsNull_eq_true_iff]
  have short : Char.ofNat 0 ∉ contract.shortName := by
    have whole : Char.ofNat 0 ∉ contract.name := by
      intro member
      exact absurd (named _ member) (by decide)
    intro member
    unfold shortName at member
    split at member
    · exact whole (List.mem_of_mem_take member)
    · exact whole member
  rw [defaultFileName, List.mem_append, not_or]
  exact ⟨Text.null_not_mem_lower short, by decide⟩

end Contract

end Scaffold
