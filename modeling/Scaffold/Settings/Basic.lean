import Scaffold.Settings.Validation

/-!
# Settings

The settings in force, each with its default.  A configuration that was not
validated may hold values of any kind.
-/

namespace Scaffold

/-- The settings in force. -/
structure Settings where
  root : Value := .text "."
  apiDirectory : Value := .text "api"
  implementationDirectory : Value := .text "internal"
  formatter : Value := .text "auto"
  registryName : Value := .text "repositories.go"
  dryRun : Value := .bool false
  deriving Repr, DecidableEq

namespace Settings

/-- The settings as a configuration. -/
def toValue (settings : Settings) : Value :=
  .ofNamed
    [(pathsKey, .ofNamed
        [(rootKey, settings.root), (apiKey, settings.apiDirectory),
          (implementationKey, settings.implementationDirectory)]),
      (generationKey, .ofNamed
        [(formatterKey, settings.formatter), (registryKey, settings.registryName),
          (dryRunKey, settings.dryRun)])]

/-- Sets a directory; other keys change nothing. -/
def setPath (key : Text) (value : Value) (settings : Settings) : Settings :=
  if key = rootKey then { settings with root := value }
  else if key = apiKey then { settings with apiDirectory := value }
  else if key = implementationKey then { settings with implementationDirectory := value }
  else settings

/-- Sets a setting of the generation; other keys change nothing. -/
def setGeneration (key : Text) (value : Value) (settings : Settings) : Settings :=
  if key = formatterKey then { settings with formatter := value }
  else if key = registryKey then { settings with registryName := value }
  else if key = dryRunKey then { settings with dryRun := value }
  else settings

/-- The groups of settings, each given by a section of a configuration. -/
inductive Group where
  | paths
  | generation
  deriving Repr, DecidableEq

namespace Group

/-- The key of the section. -/
def key : Group → Text
  | paths => pathsKey
  | generation => generationKey

/-- Sets the setting of a key; other keys change nothing. -/
def set : Group → Text → Value → Settings → Settings
  | paths => setPath
  | generation => setGeneration

/-- Takes all settings of the group back to their defaults. -/
def reset (group : Group) (settings : Settings) : Settings :=
  match group with
  | paths =>
    { settings with
      root := ({} : Settings).root
      apiDirectory := ({} : Settings).apiDirectory
      implementationDirectory := ({} : Settings).implementationDirectory }
  | generation =>
    { settings with
      formatter := ({} : Settings).formatter
      registryName := ({} : Settings).registryName
      dryRun := ({} : Settings).dryRun }

/-- Sets the settings that some entries name. -/
def setAll (group : Group) (entries : List (Key × Value)) (settings : Settings) : Settings :=
  entries.foldl
    (fun known entry =>
      match entry.1 with
      | .name key => group.set key entry.2 known
      | .other _ => known)
    settings

/-- Puts entries in the place of all that a group holds.  Settings that are not
among them fall back to their defaults. -/
def replace (group : Group) (entries : List (Key × Value)) (settings : Settings) : Settings :=
  group.setAll entries (group.reset settings)

/-- Sets what a key of a section names: a setting, or all that the group holds.
What makes it a group cannot be set. -/
def assign (group : Group) (key : Text) (value : Value) (settings : Settings) :
    Except SettingsFault Settings :=
  if key = contentsKey then
    match value with
    | .mapping entries => .ok (group.replace entries settings)
    | _ => .error .wrongKind
  else if key = kindKey then .error .wrongKind
  else if key = observersKey then .error .noEntries
  else .ok (group.set key value settings)

/-- Assigns some entries one after the other.  Keys must be names. -/
def assignAll (group : Group) (settings : Settings) :
    List (Key × Value) → Except SettingsFault Settings
  | [] => .ok settings
  | (.name key, value) :: rest =>
    match group.assign key value settings with
    | .error fault => .error fault
    | .ok changed => assignAll group changed rest
  | (.other _, _) :: _ => .error .wrongKind

/-- Assigns the section of a configuration; without the section nothing is set. -/
def fill (group : Group) (entries : List (Key × Value)) (settings : Settings) :
    Except SettingsFault Settings :=
  match Value.find? (.name group.key) entries with
  | none => .ok settings
  | some (.mapping given) => group.assignAll settings given
  | some _ => .error .noEntries

end Group

/-- The settings that the entries of a configuration give. -/
def ofEntries (entries : List (Key × Value)) : Except SettingsFault Settings :=
  match Group.paths.fill entries {} with
  | .error fault => .error fault
  | .ok settings => Group.generation.fill entries settings

/-- Merges configurations, later ones over earlier ones.  Empty ones are passed
over. -/
def merge (present : List (Key × Value)) : List Value → Except SettingsFault (List (Key × Value))
  | [] => .ok present
  | config :: rest =>
    if config.isNothing then merge present rest
    else
      match config with
      | .mapping entries => merge (Value.mergeEntries present entries) rest
      | _ => .error .noEntries

def summary (settings : Settings) : Text :=
  "implgen Configuration Summary:\n" ++
    ("Paths:\n  - Root: " : Text) ++ settings.root.shown ++
    ("\n  - API directory: " : Text) ++ settings.apiDirectory.shown ++
    ("\n  - Implementation directory: " : Text) ++ settings.implementationDirectory.shown ++
    ("\n\nGeneration:\n  - Formatter: " : Text) ++ settings.formatter.shown ++
    ("\n  - Registry file: " : Text) ++ settings.registryName.shown ++
    ("\n  - Dry run: " : Text) ++ settings.dryRun.shown ++ ['\n']

end Settings

end Scaffold
