import Scaffold.Formatter
import Scaffold.Path.Basic

/-!
# Settings of a run

Where the contracts are, where the implementations go, and how they are written.
-/

namespace Scaffold

/-- The settings of a run.  Directories are relative to the root. -/
structure RunSettings where
  root : Text
  apiDirectory : Text
  implementationDirectory : Text
  registryName : Text
  isDryRun : Bool
  deriving Repr, DecidableEq

namespace RunSettings

def registryPath (settings : RunSettings) : Text :=
  Path.join settings.implementationDirectory settings.registryName

end RunSettings

/-- A project as a run sees it: the root as an absolute path, normalised
directories, the current directory of the process, and the formatter. -/
structure Project where
  settings : RunSettings
  current : Text
  toolbox : Toolbox
  formatter : Formatter

namespace Project

/-- The project of some settings, seen from a current directory. -/
def ofSettings (current : Text) (toolbox : Toolbox) (formatter : Formatter)
    (settings : RunSettings) : Project where
  settings :=
    { settings with
      root := Path.resolve current settings.root
      apiDirectory := Path.normalize settings.apiDirectory
      implementationDirectory := Path.normalize settings.implementationDirectory }
  current := current
  toolbox := toolbox
  formatter := formatter

/-- The absolute path of a path of the project. -/
def fullPath (project : Project) (path : Text) : Text :=
  Path.within project.settings.root path

/-- Formats the text of a file of the project. -/
def format (project : Project) (path text : Text) : Formatting :=
  project.formatter.format project.toolbox (some (project.fullPath path)) text

end Project

end Scaffold
