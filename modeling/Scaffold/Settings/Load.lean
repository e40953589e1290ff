import Scaffold.Attempt
import Scaffold.Settings.Environment
import Scaffold.Settings.File

/-!
# Loading settings

The settings come from the defaults, a configuration file, the environment and
explicit ones, each overriding those before.
-/

namespace Scaffold

namespace Settings

/-- Where settings are loaded from. -/
structure Sources where
  /-- The configuration file; without one the candidates are looked for. -/
  file? : Option Text := none
  environment? : Option Environment := none
  explicit? : Option Value := none
  /-- Whether the merged configuration is checked. -/
  isChecked : Bool := true

/-- The notice about a configuration file that was found. -/
def loadedFrom (path : Text) : Notice :=
  ⟨.info, "Loaded configuration from: " ++ path⟩

/-- The entries of the configuration file in force; none without a file. -/
def fileEntries (disk : Disk) (current : Text) (file? : Option Text) :
    Attempt SettingsFault (List (Key × Value)) :=
  match file? with
  | some path@(_ :: _) => .of (loadFile disk current path)
  | _ =>
    match findFile? disk current [] with
    | none => .succeed []
    | some path =>
      (Attempt.of (loadFile disk current path)).andThen fun entries =>
        (Attempt.report [loadedFrom path]).andThen fun _ => .succeed entries

/-- The settings that configurations give when laid over the defaults one after
the other. -/
def ofLayers (isChecked : Bool) (layers : List Value) : Except SettingsFault Settings :=
  match merge [] layers with
  | .error fault => .error fault
  | .ok entries =>
    match if isChecked then validate (.mapping entries) else .ok () with
    | .error fault => .error fault
    | .ok () => ofEntries entries

def load (disk : Disk) (current : Text) (sources : Sources) : Attempt SettingsFault Settings :=
  (fileEntries disk current sources.file?).andThen fun entries =>
    .of (ofLayers sources.isChecked
      ([.mapping entries] ++ (sources.environment?.bind Environment.config?).toList ++
        sources.explicit?.toList))

end Settings

end Scaffold
