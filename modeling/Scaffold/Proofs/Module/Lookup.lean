import Scaffold.Module.Lookup
import Scaffold.Proofs.Module.Nearest

/-!
# A module that was found stays found

The disk may change between the accesses to a lookup.  Until one of them succeeds
each is a search on the disk of its moment, and from then on all give what that one
gave.
-/

namespace Scaffold

namespace Module

/-- What happens around a lookup. -/
inductive Event where
  | change (disk : Disk)
  | access
  deriving Repr, DecidableEq

/-- The disks at the moments of the accesses, the first disk being given. -/
def moments : Disk → List Event → List Disk
  | _, [] => []
  | _, .change disk :: events => moments disk events
  | disk, .access :: events => disk :: moments disk events

/-- The accesses' answers begin like those of searches, and repeat the first module
that was found. -/
structure IsRemembered (searches answers : List (Except ModuleFault Module)) : Prop where
  length : answers.length = searches.length
  before : ∀ index : Nat,
    (∀ earlier, earlier < index → ∀ found : Module, answers[earlier]? ≠ some (Except.ok found)) →
      answers[index]? = searches[index]?
  after : ∀ index later : Nat, ∀ found : Module, answers[index]? = some (.ok found) → index ≤ later →
    later < answers.length → answers[later]? = some (.ok found)

namespace IsRemembered

variable {searches answers : List (Except ModuleFault Module)}

theorem nil : IsRemembered [] [] where
  length := rfl
  before := fun _ _ => rfl
  after := fun _ _ _ _ _ impossible => absurd impossible (Nat.not_lt_zero _)

theorem found (module : Module) (searches : List (Except ModuleFault Module)) :
    IsRemembered (.ok module :: searches)
      (.ok module :: List.replicate searches.length (.ok module)) := by
  have same : Except.ok module :: List.replicate searches.length (Except.ok module) =
      List.replicate (searches.length + 1) (.ok (ε := ModuleFault) module) := rfl
  rw [same]
  refine ⟨List.length_replicate, ?_, ?_⟩
  · intro index failed
    cases index with
    | zero => rfl
    | succ index =>
        have first := failed 0 (Nat.succ_pos index) module
        exact absurd rfl first
  · intro index later other success order inside
    rw [List.length_replicate] at inside
    rw [List.getElem?_replicate_of_lt (Nat.lt_of_le_of_lt order inside)] at success
    rw [List.getElem?_replicate_of_lt inside]
    exact success

theorem failed (fault : ModuleFault) (remembered : IsRemembered searches answers) :
    IsRemembered (.error fault :: searches) (.error fault :: answers) where
  length := congrArg Nat.succ remembered.length
  before := by
    intro index none
    cases index with
    | zero => rfl
    | succ index =>
        apply remembered.before index
        intro earlier order
        exact none (earlier + 1) (Nat.succ_lt_succ order)
  after := by
    intro index later module success order inside
    cases index with
    | zero => simp at success
    | succ index =>
        obtain ⟨earlier, rfl⟩ := Nat.exists_eq_succ_of_ne_zero
          (show later ≠ 0 from fun first => by omega)
        exact remembered.after index earlier module success (Nat.le_of_succ_le_succ order)
          (Nat.lt_of_succ_lt_succ inside)

end IsRemembered

namespace Lookup

variable {current : Text}

/-- The answers of the accesses among some events. -/
def answers (current : Text) : Disk → Lookup → List Event → List (Except ModuleFault Module)
  | _, _, [] => []
  | _, lookup, .change disk :: events => answers current disk lookup events
  | disk, lookup, .access :: events =>
    let (answer, after) := lookup.access disk current
    answer :: answers current disk after events

/-! ## One access -/

theorem access_of_found {lookup : Lookup} {module : Module} (known : lookup.found? = some module)
    (disk : Disk) : lookup.access disk current = (.ok module, lookup) := by
  simp only [access, known]

theorem access_of_find_ok {lookup : Lookup} {module : Module} {disk : Disk}
    (new : lookup.found? = none) (found : find disk current lookup.start = .ok module) :
    lookup.access disk current = (.ok module, { lookup with found? := some module }) := by
  simp only [access, new, found]

theorem access_of_find_error {lookup : Lookup} {fault : ModuleFault} {disk : Disk}
    (new : lookup.found? = none) (failed : find disk current lookup.start = .error fault) :
    lookup.access disk current = (.error fault, lookup) := by
  simp only [access, new, failed]

/-! ## All accesses -/

theorem answers_of_found (events : List Event) :
    ∀ (disk : Disk) {lookup : Lookup} {module : Module}, lookup.found? = some module →
      answers current disk lookup events =
        List.replicate (moments disk events).length (.ok module) := by
  induction events with
  | nil => exact fun _ _ _ _ => rfl
  | cons event events induction =>
      intro disk lookup module known
      cases event with
      | change changed => exact induction changed known
      | access =>
          rw [answers, access_of_found known]
          exact congrArg (Except.ok module :: ·) (induction disk known)

theorem isRemembered_answers {lookup : Lookup} (new : lookup.found? = none)
    (events : List Event) :
    ∀ disk, IsRemembered ((moments disk events).map fun disk => find disk current lookup.start)
      (answers current disk lookup events) := by
  induction events with
  | nil => exact fun _ => .nil
  | cons event events induction =>
      intro disk
      cases event with
      | change changed => exact induction changed
      | access =>
          rw [moments, List.map_cons, answers]
          cases searched : find disk current lookup.start with
          | ok module =>
              rw [access_of_find_ok new searched]
              dsimp only
              rw [answers_of_found events disk rfl, ← List.length_map]
              exact .found module _
          | error fault =>
              rw [access_of_find_error new searched]
              exact (induction disk).failed fault

end Lookup

/-- A search gives what the nearest manifest at or above the directory tells, and
nothing else; the accesses to a lookup are such searches, each on the disk of its
moment, until one succeeds, and repeat that one from then on. -/
theorem find_nearest_and_remember {current start : Text}
    (clean : Disk.holdsNull (Path.join current start) = false) :
    (∀ disk : Disk, disk.IsTree → ∀ answer,
      Decides disk (Path.tidy start) (Disk.place [] (Path.components (Path.join current start)))
        answer ↔ answer = find disk current start) ∧
      ∀ (disk : Disk) (events : List Event),
        IsRemembered ((moments disk events).map fun disk => find disk current start)
          (Lookup.answers current disk ⟨start, none⟩ events) := by
  have fresh : (⟨start, none⟩ : Lookup).found? = none := rfl
  constructor
  · intro disk tree answer
    exact decides_find_iff tree clean
  · intro disk events
    exact Lookup.isRemembered_answers fresh events disk

/-- A module, and in a directory of it a manifest of the given text. -/
def nestedModules (inner : Text) : Disk where
  entries :=
    [(["p"], .directory), (["p", "go.mod"], .file (Utf8.encode "module outer")),
      (["p", "q"], .directory), (["p", "q", "go.mod"], .file (Utf8.encode inner))]

/-- The inner manifest is asked alone while it names no module; what it names first
stays. -/
theorem find_nearest_and_remember_nested :
    Decides (nestedModules "// no module") "q" ["p", "q"]
        (.error (.noDirective "/p/q/go.mod")) ∧
      IsRemembered
        [.error (.noDirective "/p/q/go.mod"), .ok ⟨"a", "/p/q"⟩, .ok ⟨"b", "/p/q"⟩]
        (Lookup.answers "/p" (nestedModules "// no module") ⟨"q", none⟩
          [.access, .change (nestedModules "module a"), .access,
            .change (nestedModules "module b"), .access]) ∧
      Lookup.answers "/p" (nestedModules "// no module") ⟨"q", none⟩
          [.access, .change (nestedModules "module a"), .access,
            .change (nestedModules "module b"), .access] =
        [.error (.noDirective "/p/q/go.mod"), .ok ⟨"a", "/p/q"⟩, .ok ⟨"a", "/p/q"⟩] := by
  have tree : (nestedModules "// no module").IsTree := by
    apply Disk.isTree_of_entries
    simp [nestedModules, Disk.entry?, Disk.find?]
  have whole := find_nearest_and_remember (show Disk.holdsNull (Path.join "/p" "q") = false by decide)
  refine ⟨?_, ?_, by decide +kernel⟩
  · exact (whole.1 _ tree _).mpr (by decide +kernel)
  · have searches : (moments (nestedModules "// no module")
        [.access, .change (nestedModules "module a"), .access,
          .change (nestedModules "module b"), .access]).map (fun disk => find disk "/p" "q") =
        [.error (.noDirective "/p/q/go.mod"), .ok ⟨"a", "/p/q"⟩, .ok ⟨"b", "/p/q"⟩] := by
      decide +kernel
    rw [← searches]
    exact whole.2 _ _

end Module

end Scaffold
