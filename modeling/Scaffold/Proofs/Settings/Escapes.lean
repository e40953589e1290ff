import Scaffold.Proofs.Settings.Loading
import Scaffold.Proofs.Text.Encoding

/-!
# Faults without words

Loading either gives usable settings, or refuses them in words, or fails in a way
for which there are no words.  It fails so if the file is not UTF-8, and if a section
does not fit its group where validation had nothing to refuse.
-/

namespace Scaffold

namespace Settings

open Value

/-- The settings are usable, or what is wrong is put into words. -/
def IsHandled : Except SettingsFault Settings → Prop
  | .ok settings => IsUsable settings
  | .error fault => fault.message?.isSome = true

/-! ## Files that cannot be decoded -/

/-- A file that can be read is there, but no text is encoded in it. -/
def IsUndecodable (disk : Disk) (current path : Text) : Prop :=
  isPresent disk current path = true ∧ ∃ bytes,
    disk.readAs path (Path.join current path) = .ok bytes ∧ ∀ text, Utf8.encode text ≠ bytes

theorem isUndecodable_iff {disk : Disk} {current path : Text} :
    IsUndecodable disk current path ↔ loadFile disk current path = .error .notUtf8 := by
  constructor
  · rintro ⟨there, bytes, read, foreign⟩
    rw [loadFile, if_neg (by simp [there]), read]
    dsimp only
    cases decoded : Utf8.decode bytes with
    | error fault => rfl
    | ok text => exact absurd (Utf8.encode_of_decode decoded) (foreign text)
  · intro failed
    unfold loadFile at failed
    split at failed
    · cases failed
    · rename_i there
      split at failed
      · cases failed
      · rename_i bytes read
        split at failed
        · rename_i invalid
          refine ⟨by simpa using there, bytes, read, fun text encoded => ?_⟩
          rw [← encoded, Utf8.decode_encode] at invalid
          cases invalid
        · split at failed <;> cases failed

/-- A file that is not loaded is refused in words, unless it cannot be decoded. -/
theorem isSome_message?_of_loadFile {disk : Disk} {current path : Text} {fault : SettingsFault}
    (failed : loadFile disk current path = .error fault) (other : fault ≠ .notUtf8) :
    fault.message?.isSome = true := by
  unfold loadFile at failed
  split at failed
  · cases failed
    rfl
  · split at failed
    · cases failed
      rfl
    · split at failed
      · cases failed
        exact absurd rfl other
      · split at failed <;> cases failed <;> rfl

/-! ## Sections that do not fit -/

namespace Group

/-- The section of a group does not fit: it is no mapping, it has an entry that
cannot be assigned, or it gives the contents of the group and a value among them that
is not accepted and that no later entry replaces. -/
inductive Misfits (group : Group) (entries : List (Key × Value)) : Prop where
  | shape {part : Value} (found : find? (.name group.key) entries = some part)
      (plain : part.isMapping = false)
  | entry {given : List (Key × Value)} {entry : Key × Value}
      (found : find? (.name group.key) entries = some (mapping given)) (member : entry ∈ given)
      (unassignable : ¬ IsAssignable entry)
  | contents {before members after : List (Key × Value)} {field : Field} {value : Value}
      (found : find? (.name group.key) entries =
        some (mapping (before ++ (.name contentsKey, mapping members) :: after)))
      (own : field.group = group) (last : find? (.name field.key) after = none)
      (inside : find? (.name field.key) members = some value)
      (refused : field.accepts value = false)

variable {group : Group} {settings changed : Settings} {entries : List (Key × Value)}

/-- After the contents of a group, its fields have what is given after them, or else
what is among them. -/
theorem value_of_contents {before members after : List (Key × Value)} {field : Field}
    (once : ((before ++ (Key.name contentsKey, mapping members) :: after).map Prod.fst).Nodup)
    (membersOnce : (members.map Prod.fst).Nodup)
    (assigned : field.group.assignAll settings
      (before ++ (.name contentsKey, mapping members) :: after) = .ok changed) :
    field.value changed = (find? (.name field.key) after).getD
      ((find? (.name field.key) members).getD field.fallback) := by
  rw [List.map_append, List.map_cons] at once
  obtain ⟨_, laterOnce, _⟩ := List.nodup_append.mp once
  obtain ⟨new, afterOnce⟩ := List.nodup_cons.mp laterOnce
  obtain ⟨same, known, mapped, rfl⟩ :=
    exists_replace_of_assignAll (find?_eq_none_iff.mpr new) assigned
  obtain rfl := mapping.inj mapped
  rw [value_setAll afterOnce, if_pos rfl, value_replace membersOnce, if_pos rfl]

theorem exists_contents {value : Value} (filled : group.fill entries settings = .ok changed)
    (contents : at? [.name group.key, .name contentsKey] (mapping entries) = some value) :
    ∃ given members, find? (.name group.key) entries = some (mapping given) ∧
      find? (.name contentsKey) given = some (mapping members) := by
  rw [at?] at contents
  obtain ⟨part, found, inside⟩ := Option.bind_eq_some_iff.mp contents
  obtain ⟨given, rfl, assignable⟩ := exists_fill_iff.mp ⟨changed, filled⟩ part found
  obtain ⟨whole, listed, _⟩ := Option.bind_eq_some_iff.mp inside
  obtain ⟨_, same, _, _, mapped⟩ := assignable _ (mem_of_find?_eq_some listed)
  obtain ⟨members, rfl⟩ := exists_of_isMapping (mapped (Key.name.inj same).symm)
  exact ⟨given, members, found, listed⟩

/-- Where validation has passed, the values of a group are accepted if its section
fits. -/
theorem accepts_of_not_misfits {field : Field} (once : (mapping entries).hasKeysOnce = true)
    (passed : validate (mapping entries) = .ok ()) (fits : ¬ field.group.Misfits entries)
    (filled : field.group.fill entries settings = .ok changed)
    (fresh : field.value settings = field.fallback) :
    field.accepts (field.value changed) = true := by
  have accepted : ∀ value, at? field.path (mapping entries) = some value →
      field.accepts value = true := fun value => accepts_of_validate passed
  cases contents : at? [.name field.group.key, .name contentsKey] (mapping entries) with
  | none =>
      rw [value_fill_of_plain once contents filled, fresh]
      cases listed : at? field.path (mapping entries) with
      | none => exact field.accepts_fallback
      | some value => exact accepted value listed
  | some whole =>
      obtain ⟨given, members, found, listed⟩ := exists_contents filled contents
      obtain ⟨before, after, rfl⟩ := List.append_of_mem (mem_of_find?_eq_some listed)
      obtain ⟨keysOnce, values⟩ := hasKeysOnce_mapping.mp (hasKeysOnce_of_find? once found)
      have membersOnce := (hasKeysOnce_mapping.mp
        (values _ (List.mem_append_right before List.mem_cons_self))).1
      unfold fill at filled
      rw [found] at filled
      -- Only entries behind the contents still count, and those were validated.
      rw [value_of_contents keysOnce membersOnce filled]
      cases last : find? (.name field.key) after with
      | some value =>
          refine accepted value ?_
          rw [Field.path, at?, found, Option.bind_some, at?, find?_of_mem keysOnce
            (List.mem_append_right before (List.mem_cons_of_mem _ (mem_of_find?_eq_some last)))]
          rfl
      | none =>
          cases inside : find? (.name field.key) members with
          | none => exact field.accepts_fallback
          | some value =>
              refine Bool.of_not_eq_false fun refused => fits ?_
              exact .contents found rfl last inside refused

/-- Where the values of a group are accepted, its section fits. -/
theorem not_misfits_of_accepts (once : (mapping entries).hasKeysOnce = true)
    (filled : group.fill entries settings = .ok changed)
    (accepted : ∀ field : Field, field.group = group → field.accepts (field.value changed) = true) :
    ¬ group.Misfits entries := by
  have assignable := exists_fill_iff.mp ⟨changed, filled⟩
  rintro (⟨found, plain⟩ | ⟨found, member, unassignable⟩ | ⟨found, rfl, last, inside, refused⟩)
  · obtain ⟨given, rfl, _⟩ := assignable _ found
    cases plain
  · obtain ⟨given, same, each⟩ := assignable _ found
    obtain rfl := mapping.inj same
    exact unassignable (each _ member)
  · rename_i before members after field value
    obtain ⟨keysOnce, values⟩ := hasKeysOnce_mapping.mp (hasKeysOnce_of_find? once found)
    have membersOnce := (hasKeysOnce_mapping.mp
      (values (.name contentsKey, mapping members) (by simp))).1
    unfold fill at filled
    rw [found] at filled
    have result := accepted field rfl
    rw [value_of_contents keysOnce membersOnce filled, last, inside] at result
    exact Bool.false_ne_true (refused.symm.trans result)

end Group

/-- Layers come to something if what they are merged to is refused, or if its
sections fit. -/
theorem isHandled_ofLayers_iff {layers : List Value} {merged : List (Key × Value)}
    (laid : merge [] layers = .ok merged) (once : (mapping merged).hasKeysOnce = true) :
    IsHandled (ofLayers true layers) ↔
      (IsRefused merged ∨ ∀ group : Group, ¬ group.Misfits merged) := by
  rw [ofLayers_of_merge laid]
  rcases validate_cases merged with
    ⟨passed, sound⟩ | ⟨fault, failed, worded, refused⟩ | ⟨fault, failed, wordless, sound, hides⟩
  · have unrefused : ¬ IsRefused merged := by
      rintro (faulty | ⟨_, faulty⟩)
      · exact (sound .paths).1 faulty
      · exact (sound .generation).1 faulty
    rw [passed, or_iff_right unrefused]
    dsimp only
    cases taken : ofEntries merged with
    | error fault =>
        refine iff_of_false (by simp [IsHandled, message?_of_ofEntries taken]) fun fits => ?_
        obtain ⟨settings, other⟩ := exists_ofEntries_iff.mpr fun group part found => by
          obtain ⟨given, rfl⟩ := exists_of_isMapping
            (Bool.of_not_eq_false fun plain => fits group (.shape found plain))
          refine ⟨given, rfl, fun entry member => ?_⟩
          exact not_imp_comm.mp (fun bad => Group.Misfits.entry found member bad) (fits group)
        cases taken.symm.trans other
    | ok settings =>
        rw [IsHandled, isUsable_iff]
        constructor
        · intro accepted group
          obtain ⟨before, changed, filled, values⟩ := exists_fill_of_ofEntries taken group
          refine Group.not_misfits_of_accepts once filled fun field here => ?_
          rw [← (values field here).2]
          exact accepted field
        · intro fits field
          obtain ⟨before, changed, filled, values⟩ := exists_fill_of_ofEntries taken field.group
          obtain ⟨fresh, same⟩ := values field rfl
          rw [same]
          exact Group.accepts_of_not_misfits once passed (fits field.group) filled fresh
  · rw [failed]
    exact iff_of_true worded (.inl refused)
  · rw [failed]
    refine iff_of_false (by simp [IsHandled, wordless]) ?_
    rintro (refused | fits)
    · exact sound refused
    · obtain ⟨group, part, found, _, _, hidden⟩ := hides
      refine fits group (.shape found ?_)
      cases hidden <;> rfl

/-! ## Loading -/

/-- How loading fails without words, or gives settings that are not usable. -/
inductive Escapes (disk : Disk) (current : Text) (sources : Sources) : Prop where
  | undecodable {path : Text} (inForce : fileInForce? disk current sources.file? = some path)
      (foreign : IsUndecodable disk current path)
  | misfit {file merged : List (Key × Value)} {group : Group}
      (found : (fileEntries disk current sources.file?).result = .ok file)
      (laid : merge [] (sources.layers file) = .ok merged) (unrefused : ¬ IsRefused merged)
      (misfits : group.Misfits merged)

/-- Loading with validation is handled except for files that cannot be decoded and
for sections that do not fit. -/
theorem isHandled_load_iff {disk : Disk} {current : Text} {sources : Sources}
    (checked : sources.isChecked = true)
    (explicit : ∀ config, sources.explicit? = some config → IsConfiguration config) :
    IsHandled (load disk current sources).result ↔ ¬ Escapes disk current sources := by
  rw [load_result, checked]
  cases found : (fileEntries disk current sources.file?).result with
  | error fault =>
      have failed := found
      rw [fileEntries_result] at failed
      split at failed
      · cases failed
      rename_i path inForce
      by_cases undecoded : fault = .notUtf8
      · subst undecoded
        refine iff_of_false (by simp [IsHandled, SettingsFault.message?]) fun sound => sound ?_
        exact .undecodable inForce (isUndecodable_iff.mpr failed)
      · refine iff_of_true (isSome_message?_of_loadFile failed undecoded) ?_
        rintro (⟨again, foreign⟩ | ⟨other, _, _, _⟩)
        · obtain rfl := Option.some.inj (inForce.symm.trans again)
          exact undecoded (Except.error.inj (failed.symm.trans (isUndecodable_iff.mp foreign)))
        · cases found.symm.trans other
  | ok file =>
      have layers : ∀ layer ∈ sources.layers file, IsConfiguration layer :=
        forall_mem_layers ⟨rfl, hasKeysOnce_fileEntries found⟩
          (fun _ => HasSections.toIsConfiguration) explicit
      obtain ⟨merged, laid, _, once⟩ := exists_merged
        (fun layer member => (layers layer member).isMapping)
        (fun layer member => (layers layer member).hasKeysOnce)
      dsimp only
      rw [isHandled_ofLayers_iff laid once]
      constructor
      · rintro handled (⟨inForce, foreign⟩ | ⟨again, other, unrefused, misfits⟩)
        · rw [fileEntries_result, inForce] at found
          cases found.symm.trans (isUndecodable_iff.mp foreign)
        · obtain rfl := Except.ok.inj (found.symm.trans again)
          obtain rfl := Except.ok.inj (laid.symm.trans other)
          exact handled.elim unrefused fun fits => fits _ misfits
      · intro sound
        by_cases refused : IsRefused merged
        · exact .inl refused
        · exact .inr fun group misfits => sound (.misfit found laid refused misfits)

/-- A configuration file in which a section is null. -/
def nullDisk : Disk :=
  configDisk "f.json" "\x7b\"paths\": null\x7d"

def nullSources : Sources where
  file? := some "f.json"
  explicit? := some <| .ofNamed [(generationKey, .ofNamed [(dryRunKey, .bool true)])]

theorem isHandled_load_iff_null :
    nullSources.isChecked = true ∧
      (∀ config, nullSources.explicit? = some config → IsConfiguration config) ∧
      (IsHandled (load nullDisk "/" nullSources).result ↔ ¬ Escapes nullDisk "/" nullSources) := by
  have explicit : ∀ config, nullSources.explicit? = some config → IsConfiguration config := by
    rintro _ ⟨⟩
    exact ⟨rfl, by decide +kernel⟩
  exact ⟨rfl, explicit, isHandled_load_iff rfl explicit⟩

/-- The directories cannot be looked for in null. -/
theorem not_isHandled_load_null : ¬ IsHandled (load nullDisk "/" nullSources).result := by
  have result : (load nullDisk "/" nullSources).result = .error .wrongKind := by
    decide +kernel
  rw [result]
  simp [IsHandled, SettingsFault.message?]

end Settings

end Scaffold
