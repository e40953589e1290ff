import Scaffold.Proofs.Text.Blank
import Scaffold.Proofs.Settings.Fields

/-!
# What validation refuses

Validation looks at the fields of each section one after the other.  In a mapping
it refuses the first field with a value that it does not accept.  A section that is
no mapping has no fields: looking for one there finds nothing or fails.
-/

namespace Scaffold

namespace Text

theorem occursIn_iff {wanted text : Text} : occursIn wanted text = true ↔ wanted <:+: text := by
  induction text with
  | nil => simp [occursIn]
  | cons character rest induction =>
      rw [occursIn, Bool.or_eq_true, induction, startsWith, List.isPrefixOf_iff_prefix,
        List.infix_cons_iff]

end Text

namespace Settings

open Value

/-! ## Usable settings -/

/-- The value is a text with more than blanks. -/
def IsNonBlank (value : Value) : Prop :=
  ∃ text, value = .text text ∧ ∃ character ∈ text, Text.isBlank character = false

/-- The directories are not blank, the formatter is one of the choices, and the
registry is a source file. -/
structure IsUsable (settings : Settings) : Prop where
  root : IsNonBlank settings.root
  apiDirectory : IsNonBlank settings.apiDirectory
  implementationDirectory : IsNonBlank settings.implementationDirectory
  formatter : ∃ choice ∈ Formatter.choices, settings.formatter = .text choice
  registryName : ∃ name, settings.registryName = .text name ∧
    Go.sourceSuffix <:+ name ∧ '/' ∉ name

theorem isNonBlank_iff {value : Value} : isNonBlank value = true ↔ IsNonBlank value := by
  cases value with
  | text text =>
      have blank := not_congr (@Text.trim_eq_nil_iff text)
      simpa [isNonBlank, IsNonBlank] using blank
  | _ => simp [isNonBlank, IsNonBlank]

theorem isFormatterChoice_iff {value : Value} :
    isFormatterChoice value = true ↔ ∃ choice ∈ Formatter.choices, value = .text choice := by
  cases value <;> simp [isFormatterChoice]

theorem isRegistryName_iff {value : Value} :
    isRegistryName value = true ↔
      ∃ name, value = .text name ∧ Go.sourceSuffix <:+ name ∧ '/' ∉ name := by
  cases value <;> simp [isRegistryName, Text.endsWith]

theorem isUsable_iff {settings : Settings} :
    IsUsable settings ↔ ∀ field : Field, field.accepts (field.value settings) = true := by
  constructor
  · intro usable field
    cases field with
    | root => exact isNonBlank_iff.mpr usable.root
    | apiDirectory => exact isNonBlank_iff.mpr usable.apiDirectory
    | implementationDirectory => exact isNonBlank_iff.mpr usable.implementationDirectory
    | formatter => exact isFormatterChoice_iff.mpr usable.formatter
    | registryName => exact isRegistryName_iff.mpr usable.registryName
    | dryRun => rfl
  · intro accepted
    exact
      { root := isNonBlank_iff.mp (accepted .root)
        apiDirectory := isNonBlank_iff.mp (accepted .apiDirectory)
        implementationDirectory := isNonBlank_iff.mp (accepted .implementationDirectory)
        formatter := isFormatterChoice_iff.mp (accepted .formatter)
        registryName := isRegistryName_iff.mp (accepted .registryName) }

/-! ## Single checks -/

/-- Looking for the key in the value fails: the value is a text in which the key
occurs, a list that has it, or of a kind in which nothing can be looked for. -/
inductive Hides (key : Text) : Value → Prop where
  | text {text : Text} : key <:+: text → Hides key (.text text)
  | list {items : List Value} : .text key ∈ items → Hides key (.list items)
  | null : Hides key .null
  | bool {value : Bool} : Hides key (.bool value)
  | integer {value : Int} : Hides key (.integer value)
  | decimal {isNegative : Bool} {digits : Nat} {exponent : Int} :
      Hides key (.decimal isNegative digits exponent)
  | scalar {shown : Text} : Hides key (.scalar shown)

theorem setting?_of_hides {key : Text} {part : Value} (hidden : Hides key part) :
    setting? part key = .error .wrongKind := by
  cases hidden with
  | text occurring =>
      rw [setting?, if_pos (Text.occursIn_iff.mpr occurring)]
  | list listed =>
      refine if_pos (List.any_eq_true.mpr ⟨_, listed, ?_⟩)
      simp
  | _ => rfl

theorem setting?_of_not_hides {key : Text} {part : Value} (reachable : ¬ Hides key part) :
    setting? part key = .ok (at? [.name key] part) := by
  cases part with
  | mapping entries =>
      rw [setting?, at?]
      cases find? (.name key) entries <;> rfl
  | text text =>
      rw [setting?, if_neg (fun occurring => reachable (.text (Text.occursIn_iff.mp occurring)))]
      rfl
  | list items =>
      refine if_neg fun some => reachable ?_
      obtain ⟨item, listed, same⟩ := List.any_eq_true.mp some
      cases item with
      | text text =>
          obtain rfl := eq_of_beq same
          exact .list listed
      | _ => cases same
  | null => exact absurd .null reachable
  | bool => exact absurd .bool reachable
  | integer => exact absurd .integer reachable
  | decimal => exact absurd .decimal reachable
  | scalar => exact absurd .scalar reachable

/-- What is wrong with a field that is not accepted. -/
def Field.fault : Field → SettingsFault
  | .formatter => .unknownFormatter
  | .registryName => .invalidRegistryName
  | field => .blankDirectory field.key

theorem Field.isSome_message?_fault (field : Field) : field.fault.message?.isSome = true := by
  cases field <;> rfl

/-- A section gives the field a value that is not accepted. -/
def Field.IsUnfit (field : Field) (part : Value) : Prop :=
  ∃ value, at? [.name field.key] part = some value ∧ field.accepts value = false

theorem check_cases (field : Field) (part : Value) :
    (¬ Hides field.key part ∧ ¬ field.IsUnfit part ∧
        check part field.key field.accepts field.fault = .ok ()) ∨
      (field.IsUnfit part ∧ check part field.key field.accepts field.fault = .error field.fault) ∨
      (Hides field.key part ∧
        check part field.key field.accepts field.fault = .error .wrongKind) := by
  by_cases hidden : Hides field.key part
  · refine .inr (.inr ⟨hidden, ?_⟩)
    rw [check, setting?_of_hides hidden]
  · rw [check, setting?_of_not_hides hidden]
    unfold Field.IsUnfit
    cases at? [.name field.key] part with
    | none => exact .inl ⟨hidden, by simp, rfl⟩
    | some value =>
        cases accepted : field.accepts value with
        | true => exact .inl ⟨hidden, by simp [accepted], if_pos accepted⟩
        | false => exact .inr (.inl ⟨⟨value, rfl, accepted⟩, if_neg (by simp [accepted])⟩)

/-! ## Sections -/

/-- Checks some fields of a section one after the other. -/
def checkAll (part : Value) : List Field → Except SettingsFault Unit
  | [] => .ok ()
  | field :: rest =>
    match check part field.key field.accepts field.fault with
    | .error fault => .error fault
    | .ok () => checkAll part rest

theorem checkAll_cases (part : Value) (fields : List Field) :
    (checkAll part fields = .ok () ∧
        ∀ field ∈ fields, ¬ Hides field.key part ∧ ¬ field.IsUnfit part) ∨
      (∃ field ∈ fields, field.IsUnfit part ∧ checkAll part fields = .error field.fault) ∨
      (∃ field ∈ fields, Hides field.key part ∧ checkAll part fields = .error .wrongKind) := by
  induction fields with
  | nil => exact .inl ⟨rfl, fun field member => absurd member List.not_mem_nil⟩
  | cons field rest induction =>
      rw [checkAll]
      rcases check_cases field part with
        ⟨shown, fit, checked⟩ | ⟨unfit, checked⟩ | ⟨hidden, checked⟩ <;> rw [checked]
      · rcases induction with ⟨later, sound⟩ | ⟨other, member, last⟩ | ⟨other, member, last⟩
        · exact .inl ⟨later, List.forall_mem_cons.mpr ⟨⟨shown, fit⟩, sound⟩⟩
        · exact .inr (.inl ⟨other, List.mem_cons_of_mem field member, last⟩)
        · exact .inr (.inr ⟨other, List.mem_cons_of_mem field member, last⟩)
      · exact .inr (.inl ⟨field, List.mem_cons_self, unfit, rfl⟩)
      · exact .inr (.inr ⟨field, List.mem_cons_self, hidden, rfl⟩)

namespace Group

/-- The fields of a group that are checked, in this order. -/
def checked : Group → List Field
  | paths => [.root, .apiDirectory, .implementationDirectory]
  | generation => [.formatter, .registryName]

/-- Some field of the group is given a value that is not accepted. -/
def IsFaulty (group : Group) (entries : List (Key × Value)) : Prop :=
  ∃ field : Field, field.group = group ∧
    ∃ value, at? field.path (mapping entries) = some value ∧ field.accepts value = false

/-- Looking for a field that is checked fails in the section of the group. -/
def HidesKeys (group : Group) (entries : List (Key × Value)) : Prop :=
  ∃ part, find? (.name group.key) entries = some part ∧
    ∃ field ∈ group.checked, Hides field.key part

/-- Checks the section of a group, if there is one. -/
def examine (group : Group) (entries : List (Key × Value)) : Except SettingsFault Unit :=
  match find? (.name group.key) entries with
  | none => .ok ()
  | some part => checkAll part group.checked

theorem group_of_mem_checked {group : Group} {field : Field} (member : field ∈ group.checked) :
    field.group = group := by
  cases group <;> simp only [checked, List.mem_cons, List.not_mem_nil, or_false] at member
  · rcases member with rfl | rfl | rfl <;> rfl
  · rcases member with rfl | rfl <;> rfl

theorem mem_checked {field : Field} {value : Value} (refused : field.accepts value = false) :
    field ∈ field.group.checked := by
  cases field <;> first | decide | cases refused

theorem isFaulty_of_isUnfit {group : Group} {entries : List (Key × Value)} {part : Value}
    {field : Field} (found : find? (.name group.key) entries = some part)
    (member : field ∈ group.checked) (unfit : field.IsUnfit part) : group.IsFaulty entries := by
  obtain ⟨value, given, refused⟩ := unfit
  obtain rfl := group_of_mem_checked member
  refine ⟨field, rfl, value, ?_, refused⟩
  rw [Field.path, at?, found]
  exact given

theorem exists_isUnfit_of_isFaulty {group : Group} {entries : List (Key × Value)}
    (faulty : group.IsFaulty entries) :
    ∃ part, find? (.name group.key) entries = some part ∧
      ∃ field ∈ group.checked, field.IsUnfit part := by
  obtain ⟨field, rfl, value, given, refused⟩ := faulty
  obtain ⟨part, found, inside⟩ := Option.bind_eq_some_iff.mp given
  exact ⟨part, found, field, mem_checked refused, value, inside, refused⟩

theorem not_isFaulty_of_hidesKeys {group : Group} {entries : List (Key × Value)}
    (hides : group.HidesKeys entries) : ¬ group.IsFaulty entries := by
  intro faulty
  obtain ⟨part, found, _, _, hidden⟩ := hides
  obtain ⟨other, same, _, _, value, given, _⟩ := exists_isUnfit_of_isFaulty faulty
  obtain rfl := Option.some.inj (found.symm.trans same)
  cases hidden <;> cases given

theorem examine_cases (group : Group) (entries : List (Key × Value)) :
    (group.examine entries = .ok () ∧ ¬ group.IsFaulty entries ∧ ¬ group.HidesKeys entries) ∨
      (∃ fault, group.examine entries = .error fault ∧ fault.message?.isSome = true ∧
        group.IsFaulty entries) ∨
      (∃ fault, group.examine entries = .error fault ∧ fault.message? = none ∧
        group.HidesKeys entries) := by
  unfold examine
  cases found : find? (.name group.key) entries with
  | none =>
      refine .inl ⟨rfl, fun faulty => ?_, fun hides => ?_⟩
      · obtain ⟨part, given, _⟩ := exists_isUnfit_of_isFaulty faulty
        exact Option.some_ne_none part (given.symm.trans found)
      · obtain ⟨part, given, _⟩ := hides
        exact Option.some_ne_none part (given.symm.trans found)
  | some part =>
      dsimp only
      rcases checkAll_cases part group.checked with
        ⟨result, sound⟩ | ⟨field, member, unfit, result⟩ | ⟨field, member, hidden, result⟩
      · refine .inl ⟨result, fun faulty => ?_, fun hides => ?_⟩
        · obtain ⟨other, given, field, member, unfit⟩ := exists_isUnfit_of_isFaulty faulty
          obtain rfl := Option.some.inj (found.symm.trans given)
          exact (sound field member).2 unfit
        · obtain ⟨other, given, field, member, hidden⟩ := hides
          obtain rfl := Option.some.inj (found.symm.trans given)
          exact (sound field member).1 hidden
      · exact .inr (.inl ⟨_, result, field.isSome_message?_fault,
          isFaulty_of_isUnfit found member unfit⟩)
      · exact .inr (.inr ⟨_, result, rfl, part, found, field, member, hidden⟩)

end Group

/-! ## Configurations -/

theorem forM_check (part : Value) (fields : List Field) :
    (fields.forM fun field => check part field.key field.accepts field.fault) =
      checkAll part fields := by
  induction fields with
  | nil => rfl
  | cons field rest induction =>
      rw [checkAll, ← induction]
      show (check part field.key field.accepts field.fault).bind _ = _
      cases check part field.key field.accepts field.fault <;> rfl

theorem validatePaths_eq (part : Value) :
    validatePaths part = checkAll part Group.paths.checked := by
  rw [← forM_check]
  rfl

theorem checkAll_singleton (part : Value) (field : Field) :
    checkAll part [field] = check part field.key field.accepts field.fault := by
  rw [checkAll]
  cases check part field.key field.accepts field.fault <;> rfl

theorem validateGeneration_eq (part : Value) :
    validateGeneration part = checkAll part Group.generation.checked := by
  rw [Group.checked, checkAll, checkAll_singleton]
  rfl

theorem validateSection_eq {group : Group} {inspect : Value → Except SettingsFault Unit}
    (same : ∀ part, inspect part = checkAll part group.checked) (entries : List (Key × Value)) :
    validateSection (mapping entries) group.key inspect = group.examine entries := by
  rw [validateSection, setting?, Group.examine]
  cases find? (.name group.key) entries with
  | none => rfl
  | some part => exact same part

/-- A configuration is validated section by section. -/
theorem validate_eq (entries : List (Key × Value)) :
    validate (mapping entries) =
      match Group.paths.examine entries with
      | .error fault => .error fault
      | .ok () => Group.generation.examine entries := by
  rw [validate, ← validateSection_eq validatePaths_eq, ← validateSection_eq validateGeneration_eq]
  rfl

/-- The configuration gives a value that is not accepted, and validation comes to
it: the directories are looked at first. -/
def IsRefused (entries : List (Key × Value)) : Prop :=
  Group.paths.IsFaulty entries ∨
    (¬ Group.paths.HidesKeys entries ∧ Group.generation.IsFaulty entries)

/-- A configuration passes, or is refused in words, or validation itself fails. -/
theorem validate_cases (entries : List (Key × Value)) :
    (validate (mapping entries) = .ok () ∧
        ∀ group : Group, ¬ group.IsFaulty entries ∧ ¬ group.HidesKeys entries) ∨
      (∃ fault, validate (mapping entries) = .error fault ∧ fault.message?.isSome = true ∧
        IsRefused entries) ∨
      (∃ fault, validate (mapping entries) = .error fault ∧ fault.message? = none ∧
        ¬ IsRefused entries ∧ ∃ group : Group, group.HidesKeys entries) := by
  rw [validate_eq]
  rcases Group.paths.examine_cases entries with
    ⟨passed, sound, shown⟩ | ⟨fault, failed, worded, faulty⟩ | ⟨fault, failed, wordless, hides⟩
  · rw [passed]
    dsimp only
    rcases Group.generation.examine_cases entries with
      ⟨last, fit, reachable⟩ | ⟨fault, last, worded, faulty⟩ | ⟨fault, last, wordless, hides⟩
    · refine .inl ⟨last, fun group => ?_⟩
      cases group with
      | paths => exact ⟨sound, shown⟩
      | generation => exact ⟨fit, reachable⟩
    · exact .inr (.inl ⟨fault, last, worded, .inr ⟨shown, faulty⟩⟩)
    · refine .inr (.inr ⟨fault, last, wordless, ?_, .generation, hides⟩)
      rintro (faulty | ⟨_, faulty⟩)
      · exact sound faulty
      · exact Group.not_isFaulty_of_hidesKeys hides faulty
  · rw [failed]
    exact .inr (.inl ⟨fault, rfl, worded, .inl faulty⟩)
  · rw [failed]
    refine .inr (.inr ⟨fault, rfl, wordless, ?_, .paths, hides⟩)
    rintro (faulty | ⟨shown, _⟩)
    · exact Group.not_isFaulty_of_hidesKeys hides faulty
    · exact shown hides

theorem accepts_of_validate {entries : List (Key × Value)}
    (passed : validate (mapping entries) = .ok ()) {field : Field} {value : Value}
    (given : at? field.path (mapping entries) = some value) : field.accepts value = true := by
  rcases validate_cases entries with ⟨_, sound⟩ | ⟨_, failed, _⟩ | ⟨_, failed, _⟩
  · refine Bool.of_not_eq_false fun refused => ?_
    exact (sound field.group).1 ⟨field, rfl, value, given, refused⟩
  · cases passed.symm.trans failed
  · cases passed.symm.trans failed

end Settings

end Scaffold
