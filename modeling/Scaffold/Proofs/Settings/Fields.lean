import Scaffold.Proofs.Settings.Layers

/-!
# The fields of the settings

Each field of the settings belongs to a group and is given under a key of its
section.  Assigning a section sets the fields that it gives and leaves all others
as they were, unless it gives the contents of the whole group.
-/

namespace Scaffold

namespace Settings

open Value

/-- The fields of the settings. -/
inductive Field where
  | root
  | apiDirectory
  | implementationDirectory
  | formatter
  | registryName
  | dryRun
  deriving Repr, DecidableEq

namespace Field

def group : Field → Group
  | root | apiDirectory | implementationDirectory => .paths
  | formatter | registryName | dryRun => .generation

def key : Field → Text
  | root => rootKey
  | apiDirectory => apiKey
  | implementationDirectory => implementationKey
  | formatter => formatterKey
  | registryName => registryKey
  | dryRun => dryRunKey

/-- The value of the field in some settings. -/
def value (settings : Settings) : Field → Value
  | root => settings.root
  | apiDirectory => settings.apiDirectory
  | implementationDirectory => settings.implementationDirectory
  | formatter => settings.formatter
  | registryName => settings.registryName
  | dryRun => settings.dryRun

/-- The default of the field. -/
def fallback (field : Field) : Value :=
  field.value {}

/-- Where the field stands in a configuration. -/
def path (field : Field) : List Key :=
  [.name field.group.key, .name field.key]

/-- The field is valid with the value. -/
def accepts : Field → Value → Bool
  | root | apiDirectory | implementationDirectory => isNonBlank
  | formatter => isFormatterChoice
  | registryName => isRegistryName
  | dryRun => fun _ => true

theorem accepts_fallback (field : Field) : field.accepts field.fallback = true := by
  cases field <;> decide

end Field

namespace Group

/-! ## Single fields -/

theorem value_set_key (field : Field) (value : Value) (settings : Settings) :
    field.value (field.group.set field.key value settings) = value := by
  cases field <;> rfl

theorem value_set_of_ne {group : Group} {key : Text} {field : Field}
    (other : field.group = group → field.key ≠ key) (value : Value) (settings : Settings) :
    field.value (group.set key value settings) = field.value settings := by
  cases group with
  | paths =>
      show field.value (setPath key value settings) = field.value settings
      unfold setPath
      split_ifs <;> cases field <;> first | rfl | (subst_vars; exact absurd rfl (other rfl))
  | generation =>
      show field.value (setGeneration key value settings) = field.value settings
      unfold setGeneration
      split_ifs <;> cases field <;> first | rfl | (subst_vars; exact absurd rfl (other rfl))

theorem value_reset (group : Group) (field : Field) (settings : Settings) :
    field.value (group.reset settings) =
      if field.group = group then field.fallback else field.value settings := by
  cases group <;> cases field <;> rfl

/-! ## Several fields -/

/-- Entries that are set one after the other give each field what they have under
its key. -/
theorem value_setAll {entries : List (Key × Value)} (once : (entries.map Prod.fst).Nodup)
    (group : Group) (field : Field) (settings : Settings) :
    field.value (group.setAll entries settings) =
      if field.group = group then (find? (.name field.key) entries).getD (field.value settings)
      else field.value settings := by
  induction entries generalizing settings with
  | nil => split <;> rfl
  | cons entry rest induction =>
      obtain ⟨key, value⟩ := entry
      obtain ⟨new, once⟩ := List.nodup_cons.mp once
      rw [setAll, List.foldl_cons]
      refine (induction once _).trans ?_
      rw [find?_cons]
      dsimp only
      cases key with
      | other shown => rw [if_neg (Key.noConfusion : Key.other shown ≠ Key.name field.key)]
      | name key =>
          dsimp only
          by_cases same : field.group = group ∧ key = field.key
          · obtain ⟨rfl, rfl⟩ := same
            rw [value_set_key, find?_eq_none_iff.mpr new, if_pos rfl, if_pos rfl, if_pos rfl]
            rfl
          · have kept := value_set_of_ne (fun here equal => same ⟨here, equal.symm⟩) value settings
            rw [kept]
            split
            · rename_i here
              rw [if_neg (fun equal => same ⟨here, Key.name.inj equal⟩)]
            · rfl

theorem value_replace {members : List (Key × Value)} (once : (members.map Prod.fst).Nodup)
    (group : Group) (field : Field) (settings : Settings) :
    field.value (group.replace members settings) =
      if field.group = group then (find? (.name field.key) members).getD field.fallback
      else field.value settings := by
  rw [replace, value_setAll once, value_reset]
  split <;> rfl

/-- An entry of a section can be assigned: it has a name, which is no part of what
makes a group, and contents are given by a mapping. -/
def IsAssignable (entry : Key × Value) : Prop :=
  ∃ name, entry.1 = .name name ∧ name ≠ kindKey ∧ name ≠ observersKey ∧
    (name = contentsKey → entry.2.isMapping = true)

variable {group : Group} {settings changed : Settings} {entries : List (Key × Value)}

theorem exists_assign_iff {name : Text} {value : Value} :
    (∃ changed, group.assign name value settings = .ok changed) ↔
      IsAssignable (.name name, value) := by
  have given : IsAssignable (.name name, value) ↔ name ≠ kindKey ∧ name ≠ observersKey ∧
      (name = contentsKey → value.isMapping = true) := by
    simp [IsAssignable]
  rw [given]
  unfold assign
  by_cases contents : name = contentsKey
  · have distinct : contentsKey ≠ kindKey ∧ contentsKey ≠ observersKey := by decide
    subst contents
    cases value <;> simp [distinct, isMapping]
  · rw [if_neg contents]
    by_cases kind : name = kindKey
    · rw [if_pos kind]
      simp [kind]
    · rw [if_neg kind]
      by_cases observers : name = observersKey
      · rw [if_pos observers]
        simp [observers]
      · rw [if_neg observers]
        simp [contents, kind, observers]

theorem message?_of_assign {name : Text} {value : Value} {fault : SettingsFault}
    (failed : group.assign name value settings = .error fault) : fault.message? = none := by
  unfold assign at failed
  split_ifs at failed
  · split at failed <;> cases failed
    rfl
  · cases failed
    rfl
  · cases failed
    rfl

theorem eq_set_of_assign {name : Text} {value : Value} (plain : name ≠ contentsKey)
    (assigned : group.assign name value settings = .ok changed) :
    changed = group.set name value settings := by
  unfold assign at assigned
  rw [if_neg plain] at assigned
  split_ifs at assigned
  exact (Except.ok.inj assigned).symm

theorem exists_replace_of_assign {value : Value}
    (assigned : group.assign contentsKey value settings = .ok changed) :
    ∃ members, value = mapping members ∧ changed = group.replace members settings := by
  unfold assign at assigned
  rw [if_pos rfl] at assigned
  split at assigned
  · exact ⟨_, rfl, (Except.ok.inj assigned).symm⟩
  · cases assigned

theorem exists_assignAll_iff :
    (∃ changed, group.assignAll settings entries = .ok changed) ↔
      ∀ entry ∈ entries, IsAssignable entry := by
  induction entries generalizing settings with
  | nil => exact ⟨fun _ _ member => absurd member List.not_mem_nil, fun _ => ⟨settings, rfl⟩⟩
  | cons entry rest induction =>
      obtain ⟨key, value⟩ := entry
      rw [List.forall_mem_cons]
      cases key with
      | other shown =>
          constructor
          · rintro ⟨_, assigned⟩
            cases assigned
          · rintro ⟨⟨_, same, _⟩, _⟩
            cases same
      | name name =>
          rw [← @exists_assign_iff group settings name value, assignAll]
          cases group.assign name value settings with
          | error fault => simp
          | ok changed => simpa using induction

theorem message?_of_assignAll {fault : SettingsFault}
    (failed : group.assignAll settings entries = .error fault) : fault.message? = none := by
  induction entries generalizing settings with
  | nil => cases failed
  | cons entry rest induction =>
      obtain ⟨key, value⟩ := entry
      cases key with
      | other shown =>
          cases failed
          rfl
      | name name =>
          rw [assignAll] at failed
          split at failed
          · rename_i refused
            cases failed
            exact message?_of_assign refused
          · exact induction failed

theorem eq_setAll_of_assignAll (plain : find? (.name contentsKey) entries = none)
    (assigned : group.assignAll settings entries = .ok changed) :
    changed = group.setAll entries settings := by
  induction entries generalizing settings with
  | nil => exact (Except.ok.inj assigned).symm
  | cons entry rest induction =>
      obtain ⟨key, value⟩ := entry
      rw [find?_cons] at plain
      split_ifs at plain with here
      cases key with
      | other shown => cases assigned
      | name name =>
          rw [assignAll] at assigned
          split at assigned
          · cases assigned
          · rename_i first
            have other : name ≠ contentsKey := fun same => here (congrArg Key.name same)
            rw [induction plain assigned, eq_set_of_assign other first]
            rfl

/-- Contents take the place of all that is assigned before them. -/
theorem exists_replace_of_assignAll {before after : List (Key × Value)} {value : Value}
    (plain : find? (.name contentsKey) after = none)
    (assigned : group.assignAll settings (before ++ (.name contentsKey, value) :: after) =
      .ok changed) :
    ∃ members known, value = mapping members ∧
      changed = group.setAll after (group.replace members known) := by
  induction before generalizing settings with
  | nil =>
      rw [List.nil_append, assignAll] at assigned
      split at assigned
      · cases assigned
      · rename_i first
        obtain ⟨members, mapped, rfl⟩ := exists_replace_of_assign first
        exact ⟨members, settings, mapped, eq_setAll_of_assignAll plain assigned⟩
  | cons entry rest induction =>
      obtain ⟨key, other⟩ := entry
      cases key with
      | other shown => cases assigned
      | name name =>
          rw [List.cons_append, assignAll] at assigned
          split at assigned
          · cases assigned
          · exact induction assigned

/-! ## Other groups -/

theorem value_setAll_of_ne {field : Field} (other : field.group ≠ group)
    (entries : List (Key × Value)) (settings : Settings) :
    field.value (group.setAll entries settings) = field.value settings := by
  induction entries generalizing settings with
  | nil => rfl
  | cons entry rest induction =>
      obtain ⟨key, value⟩ := entry
      refine (induction _).trans ?_
      cases key with
      | name key => exact value_set_of_ne (fun same => absurd same other) value settings
      | other shown => rfl

theorem value_assign_of_ne {field : Field} (other : field.group ≠ group) {name : Text}
    {value : Value} (assigned : group.assign name value settings = .ok changed) :
    field.value changed = field.value settings := by
  by_cases contents : name = contentsKey
  · subst contents
    obtain ⟨members, _, rfl⟩ := exists_replace_of_assign assigned
    rw [replace, value_setAll_of_ne other, value_reset, if_neg other]
  · rw [eq_set_of_assign contents assigned]
    exact value_set_of_ne (fun same => absurd same other) value settings

theorem value_assignAll_of_ne {field : Field} (other : field.group ≠ group)
    (assigned : group.assignAll settings entries = .ok changed) :
    field.value changed = field.value settings := by
  induction entries generalizing settings with
  | nil => rw [Except.ok.inj assigned]
  | cons entry rest induction =>
      obtain ⟨key, value⟩ := entry
      cases key with
      | other shown => cases assigned
      | name name =>
          rw [assignAll] at assigned
          split at assigned
          · cases assigned
          · rename_i first
            rw [induction assigned, value_assign_of_ne other first]

/-! ## Sections -/

/-- A section can be assigned if it is absent, or a mapping whose entries all can. -/
theorem exists_fill_iff :
    (∃ changed, group.fill entries settings = .ok changed) ↔
      ∀ part, find? (.name group.key) entries = some part →
        ∃ given, part = mapping given ∧ ∀ entry ∈ given, IsAssignable entry := by
  unfold fill
  split
  · rename_i missing
    simp [missing]
  · rename_i given found
    rw [exists_assignAll_iff, found]
    simp
  · rename_i part plain found
    rw [found]
    constructor
    · rintro ⟨_, filled⟩
      cases filled
    · intro assignable
      obtain ⟨given, rfl, _⟩ := assignable part rfl
      exact absurd rfl (plain given)

theorem message?_of_fill {fault : SettingsFault}
    (failed : group.fill entries settings = .error fault) : fault.message? = none := by
  unfold fill at failed
  split at failed
  · cases failed
  · exact message?_of_assignAll failed
  · cases failed
    rfl

theorem value_fill_of_ne {field : Field} (other : field.group ≠ group)
    (filled : group.fill entries settings = .ok changed) :
    field.value changed = field.value settings := by
  unfold fill at filled
  split at filled
  · rw [Except.ok.inj filled]
  · exact value_assignAll_of_ne other filled
  · cases filled

/-- Unless the section gives the contents of its group, a field has what stands in
it. -/
theorem value_fill_of_plain {field : Field} (once : (mapping entries).hasKeysOnce = true)
    (plain : at? [.name field.group.key, .name contentsKey] (mapping entries) = none)
    (filled : field.group.fill entries settings = .ok changed) :
    field.value changed = (at? field.path (mapping entries)).getD (field.value settings) := by
  rw [at?] at plain
  rw [Field.path, at?]
  unfold fill at filled
  cases found : find? (.name field.group.key) entries with
  | none =>
      rw [found] at filled
      rw [← Except.ok.inj filled]
      rfl
  | some part =>
      rw [found] at filled plain
      cases part with
      | mapping given =>
          have absent : find? (.name contentsKey) given = none := by
            simpa [at?] using plain
          have keysOnce := (hasKeysOnce_mapping.mp (hasKeysOnce_of_find? once found)).1
          rw [eq_setAll_of_assignAll absent filled, value_setAll keysOnce, if_pos rfl,
            Option.bind_some, at?]
          cases find? (.name field.key) given <;> rfl
      | _ => cases filled

end Group

/-! ## Configurations -/

/-- A configuration can be taken over if both its sections can be assigned. -/
theorem exists_ofEntries_iff {entries : List (Key × Value)} :
    (∃ settings, ofEntries entries = .ok settings) ↔
      ∀ (group : Group) (part : Value), find? (.name group.key) entries = some part →
        ∃ given, part = mapping given ∧ ∀ entry ∈ given, Group.IsAssignable entry := by
  have both : (∃ settings, ofEntries entries = .ok settings) ↔
      (∃ settings, Group.paths.fill entries {} = .ok settings) ∧
        ∃ settings, Group.generation.fill entries ({} : Settings) = .ok settings := by
    unfold ofEntries
    cases filled : Group.paths.fill entries {} with
    | error fault => simp
    | ok settings =>
        have apart := @Group.exists_fill_iff .generation settings entries
        simp [apart, Group.exists_fill_iff]
  rw [both, Group.exists_fill_iff, Group.exists_fill_iff]
  constructor
  · rintro ⟨paths, generation⟩ group
    cases group with
    | paths => exact paths
    | generation => exact generation
  · exact fun each => ⟨each .paths, each .generation⟩

theorem message?_of_ofEntries {entries : List (Key × Value)} {fault : SettingsFault}
    (failed : ofEntries entries = .error fault) : fault.message? = none := by
  unfold ofEntries at failed
  split at failed
  · rename_i first
    cases failed
    exact Group.message?_of_fill first
  · exact Group.message?_of_fill failed

/-- What the fields of a group come to is decided by its section. -/
theorem exists_fill_of_ofEntries {entries : List (Key × Value)} {settings : Settings}
    (taken : ofEntries entries = .ok settings) (group : Group) :
    ∃ before changed, group.fill entries before = .ok changed ∧
      ∀ field : Field, field.group = group →
        field.value before = field.fallback ∧ field.value settings = field.value changed := by
  unfold ofEntries at taken
  split at taken
  · cases taken
  · rename_i paths first
    cases group with
    | paths =>
        refine ⟨_, paths, first, fun field here => ⟨rfl, ?_⟩⟩
        exact Group.value_fill_of_ne (by simp [here]) taken
    | generation =>
        refine ⟨paths, settings, taken, fun field here => ⟨?_, rfl⟩⟩
        exact Group.value_fill_of_ne (by simp [here]) first

end Settings

end Scaffold
