import Scaffold.Project.Settings
import Scaffold.Settings.Basic

/-!
# Setting up a project

Settings that were not checked may hold values that no project can have.
-/

namespace Scaffold

/-- Why settings make no project. -/
inductive SetupFault where
  /-- A setting that has to be a text is none. -/
  | wrongKind
  | unknownFormatter (choice : Value)
  deriving Repr

namespace SetupFault

/-- The wording of a fault; one has none. -/
def message? : SetupFault → Option Text
  | wrongKind => none
  | unknownFormatter choice =>
    some ("Unknown formatter: " ++ choice.shown ++ ". Available: " ++ Formatter.shownChoices)

end SetupFault

namespace Value

/-- The value as a text, if it is one. -/
def text? : Value → Option Text
  | text value => some value
  | _ => none

end Value

namespace RunSettings

/-- The settings of a run, as far as their values are texts. -/
def ofSettings? (settings : Settings) : Option RunSettings :=
  match settings.root.text?, settings.apiDirectory.text?, settings.implementationDirectory.text?,
    settings.registryName.text? with
  | some root, some api, some implementation, some registry =>
    some ⟨root, api, implementation, registry, !settings.dryRun.isNothing⟩
  | _, _, _, _ => none

end RunSettings

namespace Project

/-- The project of some settings, seen from a current directory.  A formatter
that is handed over takes the place of the chosen one. -/
def setUp (current : Text) (toolbox : Toolbox) (settings : Settings) :
    Except SetupFault Project :=
  match RunSettings.ofSettings? settings with
  | none => .error .wrongKind
  | some runSettings =>
    match toolbox.formatter?.or (settings.formatter.text?.bind (Formatter.choose? toolbox)) with
    | none => .error (.unknownFormatter settings.formatter)
    | some formatter => .ok (ofSettings current toolbox formatter runSettings)

end Project

end Scaffold
