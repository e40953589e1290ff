import Scaffold.Proofs.Settings.Loading

/-!
# Which setting prevails

Explicit settings come before the environment, the environment before the file, and
the file before the defaults.  What was loaded is valid, and as a configuration of
its own it loads as the same settings.
-/

namespace Scaffold

namespace Settings

open Value

/-! ## Layers with sections -/

/-- What stands where one value is laid over another, if something stands in either
of them. -/
def laid? (base? : Option Value) : Option Value → Option Value
  | some value => some ((base?.getD null).overlay value)
  | none => base?

@[simp] theorem none_laid? (added? : Option Value) : laid? none added? = added? := by
  cases added? <;> simp [laid?]

theorem at?_overlay_of_not_isBlocked {path : List Key} {added : Value}
    (once : added.hasKeysOnce = true) (reached : ¬ IsBlocked path added) (base : Value) :
    at? path (base.overlay added) = laid? (at? path base) (at? path added) := by
  cases found : at? path added with
  | some value => exact at?_overlay_of_found once found base
  | none =>
      refine at?_overlay_of_not_decides once ?_ base
      rintro (⟨value, standing⟩ | blocked)
      · cases standing.symm.trans found
      · exact reached blocked

theorem isMapping_of_isBlocked_singleton {key : Key} {value : Value}
    (blocked : IsBlocked [key] value) : value.isMapping = false := by
  cases value with
  | mapping entries =>
      obtain ⟨inner, _, inside⟩ := isBlocked_cons_mapping.mp blocked
      exact absurd inside (not_isBlocked_nil inner)
  | _ => rfl

section Overlay

variable {base config : Value}

theorem HasSections.at?_section (sections : HasSections config) (group : Group)
    (base : Value) :
    at? [.name group.key] (base.overlay config) =
      laid? (at? [.name group.key] base) (at? [.name group.key] config) := by
  refine at?_overlay_of_not_isBlocked sections.hasKeysOnce (fun blocked => ?_) base
  cases sections.isMapping.symm.trans (isMapping_of_isBlocked_singleton blocked)

theorem HasSections.at?_inside (sections : HasSections config) (group : Group) (key : Key)
    (base : Value) :
    at? [.name group.key, key] (base.overlay config) =
      laid? (at? [.name group.key, key] base) (at? [.name group.key, key] config) := by
  refine at?_overlay_of_not_isBlocked sections.hasKeysOnce (fun blocked => ?_) base
  have kind := sections.isMapping
  cases config with
  | mapping entries =>
      obtain ⟨part, found, inside⟩ := isBlocked_cons_mapping.mp blocked
      have standing : at? [.name group.key] (mapping entries) = some part := by
        rw [at?, found]
        rfl
      cases (sections.mapped group part standing).symm.trans
        (isMapping_of_isBlocked_singleton inside)
  | _ => cases kind

theorem HasSections.overlay (baseSections : HasSections base) (sections : HasSections config) :
    HasSections (base.overlay config) where
  isMapping := isMapping_overlay sections.isMapping base
  hasKeysOnce := hasKeysOnce_overlay base config baseSections.hasKeysOnce sections.hasKeysOnce
  mapped group part found := by
    rw [sections.at?_section] at found
    cases given : at? [.name group.key] config with
    | none =>
        rw [given] at found
        exact baseSections.mapped group part found
    | some value =>
        rw [given] at found
        obtain rfl := Option.some.inj found
        exact isMapping_overlay (sections.mapped group value given) _
  plain group := by
    rw [sections.at?_inside, baseSections.plain, sections.plain]
    rfl

theorem hasSections_foldl {layers : List Value}
    (sound : ∀ layer ∈ layers, HasSections layer) (baseSections : HasSections base) :
    HasSections (layers.foldl Value.overlay base) := by
  induction layers generalizing base with
  | nil => exact baseSections
  | cons layer rest induction =>
      obtain ⟨first, later⟩ := List.forall_mem_cons.mp sound
      exact induction later (baseSections.overlay first)

theorem hasSections_nil : HasSections (mapping []) where
  isMapping := rfl
  hasKeysOnce := rfl
  mapped _ _ found := nomatch found
  plain _ := rfl

end Overlay

theorem value_ofEntries {entries : List (Key × Value)} (sections : HasSections (mapping entries))
    {settings : Settings} (taken : ofEntries entries = .ok settings) (field : Field) :
    field.value settings = (at? field.path (mapping entries)).getD field.fallback := by
  obtain ⟨before, changed, filled, values⟩ := exists_fill_of_ofEntries taken field.group
  obtain ⟨fresh, same⟩ := values field rfl
  rw [same, ← fresh]
  exact Group.value_fill_of_plain sections.hasKeysOnce (sections.plain field.group) filled

/-! ## Sources of a field -/

/-- The name of the environment's variable that gives the field. -/
def Field.environmentName? : Field → Option Text
  | .root => some "IMPLGEN_ROOT"
  | .apiDirectory => some "IMPLGEN_API_DIR"
  | .implementationDirectory => some "IMPLGEN_IMPL_DIR"
  | _ => none

namespace Sources

/-- What the explicit settings give the field. -/
def override? (sources : Sources) (field : Field) : Option Value :=
  sources.explicit?.bind (at? field.path)

/-- What the environment gives the field, if it is used: a text that is not
empty. -/
def surrounding? (sources : Sources) (field : Field) : Option Text :=
  sources.environment?.bind fun environment => field.environmentName?.bind environment.value?

end Sources

/-- What the file gives the field, below what the environment does, below what is
explicit. -/
def Sources.laid? (sources : Sources) (file : List (Key × Value)) (field : Field) :
    Option Value :=
  Settings.laid? (Settings.laid? (at? field.path (mapping file))
    ((sources.surrounding? field).map Value.text)) (sources.override? field)

/-- Where the value of a field comes from. -/
structure Prevails (sources : Sources) (file : List (Key × Value)) (settings : Settings)
    (field : Field) : Prop where
  /-- What is given explicitly counts. -/
  override : ∀ value, sources.override? field = some value →
    (value.isMapping = false ∨
      ∀ base, at? field.path (mapping file) = some base → base.isMapping = false) →
    field.value settings = value
  /-- Only a mapping is laid over one of the file: no directory, formatter or file
  name is one. -/
  deepened : ∀ value base, sources.override? field = some value →
    at? field.path (mapping file) = some base → value.isMapping = true →
    base.isMapping = true → field = .dryRun ∧ field.value settings = base.overlay value
  environment : sources.override? field = none → ∀ text, sources.surrounding? field = some text →
    field.value settings = .text text
  written : sources.override? field = none → sources.surrounding? field = none →
    ∀ value, at? field.path (mapping file) = some value → field.value settings = value
  fallback : sources.override? field = none → sources.surrounding? field = none →
    at? field.path (mapping file) = none → field.value settings = field.fallback

theorem at?_environment (environment : Environment) (field : Field) :
    environment.config?.bind (at? field.path) =
      (field.environmentName?.bind environment.value?).map Value.text := by
  simp only [Environment.config?, Environment.directoryVariables, List.filterMap_cons,
    List.filterMap_nil]
  cases root : environment.value? "IMPLGEN_ROOT" <;>
    cases apiDirectory : environment.value? "IMPLGEN_API_DIR" <;>
    cases implementationDirectory : environment.value? "IMPLGEN_IMPL_DIR" <;>
    cases field <;>
    simp only [Field.environmentName?, Option.bind_some, Option.bind_none, root, apiDirectory,
      implementationDirectory] <;> rfl

/-- What a layer gives a field is laid over what is there, if there is a layer. -/
theorem at?_foldl_toList {config? : Option Value}
    (sections : ∀ config, config? = some config → HasSections config) (field : Field)
    (base : Value) :
    at? field.path (config?.toList.foldl overlay base) =
      laid? (at? field.path base) (config?.bind (at? field.path)) := by
  cases config? with
  | none => rfl
  | some config => exact (sections config rfl).at?_inside field.group (.name field.key) base

section Layers

variable {sources : Sources} {file : List (Key × Value)}

/-- What the layers are merged to has what its sources give a field. -/
theorem at?_layers (sections : HasSections (mapping file))
    (explicit : ∀ config, sources.explicit? = some config → HasSections config)
    (field : Field) :
    at? field.path ((sources.layers file).foldl overlay (mapping [])) =
      sources.laid? file field := by
  have written : at? field.path ((mapping []).overlay (mapping file)) =
      at? field.path (mapping file) := by
    rw [Field.path, sections.at?_inside]
    exact none_laid? _
  have environment : ∀ config, sources.environment?.bind Environment.config? = some config →
      HasSections config := by
    intro config given
    obtain ⟨environment, _, given⟩ := Option.bind_eq_some_iff.mp given
    exact hasSections_environment given
  have surrounding : (sources.environment?.bind Environment.config?).bind (at? field.path) =
      (sources.surrounding? field).map Value.text := by
    unfold Sources.surrounding?
    cases sources.environment? with
    | none => rfl
    | some environment => exact at?_environment environment field
  rw [Sources.layers, List.foldl_append, List.foldl_append, at?_foldl_toList explicit,
    at?_foldl_toList environment, surrounding, List.foldl_cons, List.foldl_nil, written]
  rfl

theorem eq_dryRun_of_accepts {field : Field} {value : Value} (accepted : field.accepts value = true)
    (mapped : value.isMapping = true) : field = .dryRun := by
  cases value with
  | mapping entries => cases field <;> first | rfl | cases accepted
  | _ => cases mapped

/-- What comes out of the sources of a field is what prevails. -/
theorem prevails_of_laid? {field : Field} {settings : Settings}
    (accepted : ∀ value, sources.laid? file field = some value → field.accepts value = true)
    (same : field.value settings = (sources.laid? file field).getD field.fallback) :
    Prevails sources file settings field := by
  rw [Sources.laid?] at accepted same
  constructor
  · intro value given plain
    rw [given, laid?, Option.getD_some] at same
    rw [same]
    rcases plain with single | written
    · exact overlay_of_isMapping single _
    · -- Below it stands a text of the environment, or else what the file has.
      refine overlay_of_base ?_ value
      cases sources.surrounding? field with
      | some text => exact congrArg isMapping (overlay_of_isMapping rfl _)
      | none =>
          cases found : at? field.path (mapping file) with
          | none => rfl
          | some base => exact written base found
  · intro value base given written mapped _
    rw [given, laid?] at accepted same
    obtain rfl := eq_dryRun_of_accepts (accepted _ rfl) (isMapping_overlay mapped _)
    -- No variable comes between the two: none gives the dry run.
    have unset : sources.surrounding? .dryRun = none := by
      rw [Sources.surrounding?]
      cases sources.environment? <;> rfl
    rw [unset, written] at same
    exact ⟨rfl, same⟩
  · intro silent text given
    rw [silent, given] at same
    exact same.trans (overlay_of_isMapping rfl _)
  · intro silent unset value written
    rw [silent, unset, written] at same
    exact same
  · intro silent unset missing
    rw [silent, unset, missing] at same
    exact same

end Layers

/-! ## Loaded settings as a configuration -/

theorem at?_toValue (settings : Settings) (field : Field) :
    at? field.path settings.toValue = some (field.value settings) := by
  cases field <;> rfl

theorem exists_toValue (settings : Settings) :
    ∃ entries, settings.toValue = mapping entries ∧ merge [] [mapping entries] = .ok entries ∧
      ofEntries entries = .ok settings :=
  ⟨_, rfl, rfl, rfl⟩

theorem validate_toValue {settings : Settings} (usable : IsUsable settings) :
    validate settings.toValue = .ok () := by
  have accepted := isUsable_iff.mp usable
  have mapped : ∀ (group : Group) (part : Value),
      at? [.name group.key] settings.toValue = some part → part.isMapping = true := by
    rintro (_ | _) _ ⟨⟩ <;> rfl
  have given := at?_toValue settings
  obtain ⟨entries, shape, _⟩ := exists_toValue settings
  rw [shape] at mapped given ⊢
  have sound : ∀ group : Group, ¬ group.IsFaulty entries := by
    rintro group ⟨field, _, value, standing, refused⟩
    obtain rfl := Option.some.inj ((given field).symm.trans standing)
    exact Bool.false_ne_true (refused.symm.trans (accepted field))
  rcases validate_cases entries with ⟨passed, _⟩ | ⟨_, _, _, refused⟩ | ⟨_, _, _, _, group, hides⟩
  · exact passed
  · rcases refused with faulty | ⟨_, faulty⟩
    · exact absurd faulty (sound .paths)
    · exact absurd faulty (sound .generation)
  · obtain ⟨part, found, _, _, hidden⟩ := hides
    have kind := mapped group part (by rw [at?, found]; rfl)
    cases hidden <;> cases kind

theorem ofLayers_toValue {settings : Settings} (valid : validate settings.toValue = .ok ())
    (isChecked : Bool) : ofLayers isChecked [settings.toValue] = .ok settings := by
  obtain ⟨entries, shape, merged, taken⟩ := exists_toValue settings
  rw [shape] at valid ⊢
  rw [ofLayers, merged]
  dsimp only
  cases isChecked with
  | true =>
      rw [if_pos rfl, valid]
      exact taken
  | false => exact taken

/-- Every setting that is loaded comes from the last of its sources, the settings
are valid, and they are loaded again from a file that gives nothing but them. -/
theorem load_prevails {disk : Disk} {current : Text} {sources : Sources}
    {file : List (Key × Value)} {settings : Settings} (checked : sources.isChecked = true)
    (found : (fileEntries disk current sources.file?).result = .ok file)
    (written : HasSections (mapping file))
    (explicit : ∀ config, sources.explicit? = some config → HasSections config)
    (loaded : (load disk current sources).result = .ok settings) :
    (∀ field : Field, Prevails sources file settings field) ∧
      validate settings.toValue = .ok () ∧
      ∀ (other : Disk) (place : Text) (file? : Option Text) (isChecked : Bool)
        (entries : List (Key × Value)), (fileEntries other place file?).result = .ok entries →
        mapping entries = settings.toValue →
        (load other place { file? := file?, isChecked := isChecked }).result = .ok settings := by
  rw [load_result, found, checked] at loaded
  dsimp only at loaded
  have sections : ∀ layer ∈ sources.layers file, HasSections layer :=
    forall_mem_layers written (fun _ => id) explicit
  obtain ⟨merged, result, laid, _⟩ := exists_merged
    (fun layer member => (sections layer member).isMapping)
    (fun layer member => (sections layer member).hasKeysOnce)
  have together : HasSections (mapping merged) := by
    rw [laid]
    exact hasSections_foldl sections hasSections_nil
  rw [ofLayers_of_merge result] at loaded
  split at loaded
  · cases loaded
  rename_i passed
  have standing : ∀ field : Field,
      at? field.path (mapping merged) = sources.laid? file field := by
    intro field
    rw [laid]
    exact at?_layers written explicit field
  have accepted : ∀ (field : Field) (value : Value), sources.laid? file field = some value →
      field.accepts value = true := by
    intro field value given
    exact accepts_of_validate passed ((standing field).trans given)
  have same : ∀ field : Field, field.value settings =
      (sources.laid? file field).getD field.fallback := by
    intro field
    rw [value_ofEntries together loaded, standing]
  have usable : IsUsable settings := by
    refine isUsable_iff.mpr fun field => ?_
    rw [same]
    cases given : sources.laid? file field with
    | none => exact field.accepts_fallback
    | some value => exact accepted field value given
  refine ⟨fun field => prevails_of_laid? (accepted field) (same field),
    validate_toValue usable, ?_⟩
  intro other place file? isChecked entries again shape
  rw [load_result, again]
  dsimp only
  rw [Sources.layers, shape]
  exact ofLayers_toValue (validate_toValue usable) isChecked

/-- What the file gives that is read before the environment and other settings. -/
def layeredFile : List (Key × Value) :=
  [(.name pathsKey, .ofNamed [(rootKey, .text "a"), (apiKey, .text "b"), ("color", .integer 1)]),
    (.name generationKey, .ofNamed
      [(formatterKey, .text "none"), (dryRunKey, .ofNamed [("a", .integer 1)])])]

def layeredDisk : Disk :=
  configDisk "f.json"
    ("\x7b\"paths\": \x7b\"root\": \"a\", \"api_dir\": \"b\", \"color\": 1\x7d, " ++
      "\"generation\": \x7b\"formatter\": \"none\", \"dry_run\": \x7b\"a\": 1\x7d\x7d\x7d")

def layeredSources : Sources where
  file? := some "f.json"
  environment? := some [("IMPLGEN_API_DIR", "c"), ("IMPLGEN_ROOT", "")]
  explicit? := some <| .ofNamed
    [(pathsKey, .ofNamed [(implementationKey, .text "d")]),
      (generationKey, .ofNamed [(dryRunKey, .ofNamed [("b", .integer 2)])])]

/-- Each directory comes from another source. -/
def layeredSettings : Settings where
  root := .text "a"
  apiDirectory := .text "c"
  implementationDirectory := .text "d"
  formatter := .text "none"
  dryRun := .ofNamed [("a", .integer 1), ("b", .integer 2)]

theorem load_layered : (load layeredDisk "/" layeredSources).result = .ok layeredSettings := by
  decide +kernel

theorem load_prevails_layered :
    layeredSources.isChecked = true ∧
      (fileEntries layeredDisk "/" layeredSources.file?).result = .ok layeredFile ∧
      HasSections (mapping layeredFile) ∧
      (∀ config, layeredSources.explicit? = some config → HasSections config) ∧
      (load layeredDisk "/" layeredSources).result = .ok layeredSettings ∧
      (∀ field : Field, Prevails layeredSources layeredFile layeredSettings field) ∧
      validate layeredSettings.toValue = .ok () ∧
      ∀ (other : Disk) (place : Text) (file? : Option Text) (isChecked : Bool)
        (entries : List (Key × Value)), (fileEntries other place file?).result = .ok entries →
        mapping entries = layeredSettings.toValue →
        (load other place { file? := file?, isChecked := isChecked }).result =
          .ok layeredSettings := by
  have found : (fileEntries layeredDisk "/" layeredSources.file?).result = .ok layeredFile := by
    decide +kernel
  have written : HasSections (mapping layeredFile) :=
    ⟨⟨rfl, by decide +kernel⟩, by rintro (_ | _) _ ⟨⟩ <;> rfl, by rintro (_ | _) <;> rfl⟩
  have explicit : ∀ config, layeredSources.explicit? = some config → HasSections config := by
    rintro _ ⟨⟩
    exact ⟨⟨rfl, by decide +kernel⟩, by rintro (_ | _) _ ⟨⟩ <;> rfl, by rintro (_ | _) <;> rfl⟩
  exact ⟨rfl, found, written, explicit, load_layered,
    load_prevails rfl found written explicit load_layered⟩

/-- Mappings that the file and the explicit settings give are merged, and neither of
them counts alone. -/
theorem load_deepens_override :
    (load layeredDisk "/" layeredSources).result = .ok layeredSettings ∧
      layeredSources.override? .dryRun = some (.ofNamed [("b", .integer 2)]) ∧
      Field.dryRun.value layeredSettings ≠ .ofNamed [("b", .integer 2)] :=
  ⟨load_layered, by decide +kernel, by decide +kernel⟩

end Settings

end Scaffold
