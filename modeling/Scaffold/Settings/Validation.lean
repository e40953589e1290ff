import Scaffold.Go.SourceName
import Scaffold.Settings.Fault
import Scaffold.Settings.Value
import Scaffold.Text.Blank

/-!
# Valid configurations

A configuration is valid if each setting that it gives can be used.  Sections and
settings that are not known are left alone.
-/

namespace Scaffold

namespace Settings

/-- The section of the directories. -/
def pathsKey : Text := "paths"

/-- The section of the generation. -/
def generationKey : Text := "generation"

/-- The keys of the directories. -/
def rootKey : Text := "root"

@[inherit_doc rootKey]
def apiKey : Text := "api_dir"

@[inherit_doc rootKey]
def implementationKey : Text := "impl_dir"

def formatterKey : Text := "formatter"

/-- The key of the registry's file name. -/
def registryKey : Text := "registry_filename"

def dryRunKey : Text := "dry_run"

/-- The key of all that a section's group of settings holds. -/
def contentsKey : Text := "__dict__"

/-- The key of the kind of a group. -/
def kindKey : Text := "__class__"

/-- The key of what observes a group. -/
def observersKey : Text := "__weakref__"

/-- The setting of a key in a section.  A key that is found in a section that is
no mapping has no setting there. -/
def setting? (part : Value) (key : Text) : Except SettingsFault (Option Value) :=
  match part with
  | .mapping entries => .ok (Value.find? (.name key) entries)
  | .text text => if Text.occursIn key text then .error .wrongKind else .ok none
  | .list items =>
    if items.any fun item =>
      match item with
      | .text text => text == key
      | _ => false
    then .error .wrongKind else .ok none
  | _ => .error .wrongKind

/-- The value is a text that is not blank. -/
def isNonBlank : Value → Bool
  | .text text => !(Text.trim text).isEmpty
  | _ => false

/-- The value is one of the formatter choices. -/
def isFormatterChoice : Value → Bool
  | .text text => Formatter.choices.contains text
  | _ => false

/-- The value is the name of a source file. -/
def isRegistryName : Value → Bool
  | .text text => Text.endsWith Go.sourceSuffix text && !text.contains '/'
  | _ => false

/-- Checks the setting of a key, if there is one. -/
def check (part : Value) (key : Text) (accepts : Value → Bool) (fault : SettingsFault) :
    Except SettingsFault Unit :=
  match setting? part key with
  | .error error => .error error
  | .ok none => .ok ()
  | .ok (some value) => if accepts value then .ok () else .error fault

def validatePaths (part : Value) : Except SettingsFault Unit :=
  [rootKey, apiKey, implementationKey].forM fun key =>
    check part key isNonBlank (.blankDirectory key)

/-- Checks the settings of the generation. -/
def validateGeneration (part : Value) : Except SettingsFault Unit :=
  match check part formatterKey isFormatterChoice .unknownFormatter with
  | .error fault => .error fault
  | .ok () => check part registryKey isRegistryName .invalidRegistryName

/-- Checks a section, if there is one. -/
def validateSection (config : Value) (key : Text) (validate : Value → Except SettingsFault Unit) :
    Except SettingsFault Unit :=
  match setting? config key with
  | .error fault => .error fault
  | .ok none => .ok ()
  | .ok (some part) => validate part

def validate (config : Value) : Except SettingsFault Unit :=
  match validateSection config pathsKey validatePaths with
  | .error fault => .error fault
  | .ok () => validateSection config generationKey validateGeneration

end Settings

end Scaffold
