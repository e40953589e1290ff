import Scaffold.Proofs.Settings.Reading
import Scaffold.Proofs.Settings.Validity
import Scaffold.Settings.Load

/-!
# Loading in steps

Settings are loaded by merging layers of configurations, validating what comes out,
and assigning its sections.  The layers have each key once, and so has what they
are merged to.
-/

namespace Scaffold

namespace Settings

open Value

/-! ## Merged layers -/

theorem exists_map_mapping {layers : List Value}
    (mapped : ∀ layer ∈ layers, layer.isMapping = true) :
    ∃ contents : List (List (Key × Value)), layers = contents.map mapping := by
  induction layers with
  | nil => exact ⟨[], rfl⟩
  | cons layer rest induction =>
      obtain ⟨first, later⟩ := List.forall_mem_cons.mp mapped
      obtain ⟨entries, rfl⟩ := exists_of_isMapping first
      obtain ⟨contents, rfl⟩ := induction later
      exact ⟨entries :: contents, rfl⟩

theorem hasKeysOnce_foldl {layers : List Value}
    (once : ∀ layer ∈ layers, layer.hasKeysOnce = true) (base : Value)
    (baseOnce : base.hasKeysOnce = true) : (layers.foldl overlay base).hasKeysOnce = true := by
  induction layers generalizing base with
  | nil => exact baseOnce
  | cons layer rest induction =>
      obtain ⟨first, later⟩ := List.forall_mem_cons.mp once
      exact induction later _ (hasKeysOnce_overlay base layer baseOnce first)

/-- Mappings with each key once are merged to one. -/
theorem exists_merged {layers : List Value} (mapped : ∀ layer ∈ layers, layer.isMapping = true)
    (once : ∀ layer ∈ layers, layer.hasKeysOnce = true) :
    ∃ merged, merge [] layers = .ok merged ∧
      mapping merged = layers.foldl overlay (mapping []) ∧
      (mapping merged).hasKeysOnce = true := by
  obtain ⟨contents, rfl⟩ := exists_map_mapping mapped
  obtain ⟨merged, result, laid⟩ := merge_mappings contents []
  refine ⟨merged, result, laid, ?_⟩
  rw [laid]
  exact hasKeysOnce_foldl once _ (by decide)

/-- What was merged is validated before its sections are assigned. -/
theorem ofLayers_of_merge {layers : List Value} {merged : List (Key × Value)}
    (result : merge [] layers = .ok merged) :
    ofLayers true layers =
      match validate (mapping merged) with
      | .error fault => .error fault
      | .ok () => ofEntries merged := by
  rw [ofLayers, result]
  rfl

/-! ## Layers -/

/-- The layers over which settings are loaded, with the entries of the file. -/
def Sources.layers (sources : Sources) (file : List (Key × Value)) : List Value :=
  [.mapping file] ++ (sources.environment?.bind Environment.config?).toList ++
    sources.explicit?.toList

/-- A configuration of the file's kind: a mapping that has each key once, as all
mappings inside it. -/
structure IsConfiguration (config : Value) : Prop where
  isMapping : config.isMapping = true
  hasKeysOnce : config.hasKeysOnce = true

/-- The sections of the configuration are mappings, and give no group as a
whole. -/
structure HasSections (config : Value) : Prop extends IsConfiguration config where
  mapped : ∀ (group : Group) (part : Value), at? [.name group.key] config = some part →
    part.isMapping = true
  plain : ∀ group : Group, at? [.name group.key, .name contentsKey] config = none

theorem load_result (disk : Disk) (current : Text) (sources : Sources) :
    (load disk current sources).result =
      match (fileEntries disk current sources.file?).result with
      | .error fault => .error fault
      | .ok file => ofLayers sources.isChecked (sources.layers file) := by
  rw [load, Attempt.andThen]
  cases (fileEntries disk current sources.file?).result <;> rfl

/-- The configuration file in force: the one that is asked for, or the first
candidate that is there. -/
def fileInForce? (disk : Disk) (current : Text) : Option Text → Option Text
  | some path@(_ :: _) => some path
  | _ => findFile? disk current []

theorem fileEntries_result (disk : Disk) (current : Text) (file? : Option Text) :
    (fileEntries disk current file?).result =
      match fileInForce? disk current file? with
      | none => .ok []
      | some path => loadFile disk current path := by
  have candidate : ∀ path, ((Attempt.of (loadFile disk current path)).andThen fun entries =>
      (Attempt.report [loadedFrom path]).andThen fun _ => .succeed entries).result =
      loadFile disk current path := by
    intro path
    rw [Attempt.andThen, Attempt.of]
    cases loadFile disk current path <;> rfl
  match file? with
  | some (_ :: _) => rfl
  | none | some [] =>
      unfold fileEntries fileInForce?
      dsimp only
      cases findFile? disk current [] with
      | none => rfl
      | some path => exact candidate path

theorem hasKeysOnce_fileEntries {disk : Disk} {current : Text} {file? : Option Text}
    {file : List (Key × Value)} (loaded : (fileEntries disk current file?).result = .ok file) :
    (mapping file).hasKeysOnce = true := by
  rw [fileEntries_result] at loaded
  split at loaded
  · obtain rfl := Except.ok.inj loaded
    decide
  · exact hasKeysOnce_loadFile loaded

theorem hasSections_environment {environment : Environment} {config : Value}
    (given : environment.config? = some config) : HasSections config := by
  revert given
  simp only [Environment.config?, Environment.directoryVariables, List.filterMap_cons,
    List.filterMap_nil]
  cases environment.value? "IMPLGEN_ROOT" <;> cases environment.value? "IMPLGEN_API_DIR" <;>
    cases environment.value? "IMPLGEN_IMPL_DIR" <;> intro given <;> cases given <;>
    refine ⟨⟨rfl, rfl⟩, ?_, ?_⟩ <;> rintro (_ | _) <;>
    first | rfl | (rintro _ ⟨⟩; rfl) | exact fun _ found => nomatch found

theorem forall_mem_layers {sources : Sources} {file : List (Key × Value)} {holds : Value → Prop}
    (written : holds (mapping file)) (surrounding : ∀ config, HasSections config → holds config)
    (explicit : ∀ config, sources.explicit? = some config → holds config) :
    ∀ layer ∈ sources.layers file, holds layer := by
  unfold Sources.layers
  refine List.forall_mem_append.mpr ⟨List.forall_mem_append.mpr ⟨?_, ?_⟩, ?_⟩
  · exact List.forall_mem_singleton.mpr written
  · intro layer member
    obtain ⟨environment, _, given⟩ := Option.bind_eq_some_iff.mp (Option.mem_toList.mp member)
    exact surrounding layer (hasSections_environment given)
  · exact fun layer member => explicit layer (Option.mem_toList.mp member)

/-- A disk with one file below its root. -/
def configDisk (name content : Text) : Disk where
  entries := [([name], .file (Utf8.encode content))]

end Settings

end Scaffold
