import Scaffold.Json.Reader
import Scaffold.Json.Writer
import Scaffold.Settings.Basic
import Scaffold.Text.Lines
import Scaffold.Text.Lower
import Scaffold.Yaml.Reader
import Scaffold.Yaml.Writer

/-!
# Configuration files

A configuration file is YAML if its name says so, and JSON otherwise.  Without a
file that is asked for, the first candidate that is there is taken.  Paths are
seen from the current directory and reported as they are given.
-/

namespace Scaffold

namespace Settings

/-- The names of configuration files, in the order in which they are looked
for. -/
def candidates : List Text :=
  ["implgen.yaml", "implgen.yml", "implgen.json",
    ".implgen.yaml", ".implgen.yml", ".implgen.json"]

def isPresent (disk : Disk) (current path : Text) : Bool :=
  !path.isEmpty && (disk.at? (Path.join current path)).isSome

/-- The first path at which something stands.  Without paths the candidates are
looked for. -/
def findFile? (disk : Disk) (current : Text) (paths : List Text) : Option Text :=
  (if paths.isEmpty then candidates else paths).find? (isPresent disk current)

/-- The path is that of a YAML file. -/
def isYaml (path : Text) : Bool :=
  Text.endsWith ".yaml" path || Text.endsWith ".yml" path

/-- The value that a text gives in the format that a path tells.  A YAML text
that comes to nothing is an empty configuration. -/
def decode? (path text : Text) : Option Value :=
  if isYaml path then
    (Yaml.read? text).map fun value => if value.isNothing then .mapping [] else value
  else Json.read? text

/-- The entries of the configuration file at a path. -/
def loadFile (disk : Disk) (current path : Text) :
    Except SettingsFault (List (Key × Value)) :=
  if !isPresent disk current path then .error (.notFound path)
  else
    match disk.readAs path (Path.join current path) with
    | .error fault => .error (.unreadable fault)
    | .ok bytes =>
      match Utf8.decode bytes with
      | .error _ => .error .notUtf8
      | .ok text =>
        match decode? path (Text.universalNewlines text) with
        | none => .error .invalidFormat
        | some (.mapping entries) => .ok entries
        | some _ => .error (.notMapping path)

/-- The settings in a format: YAML if that is asked for in letters of any case,
and JSON otherwise. -/
def encode (settings : Settings) (format : Text) : Text :=
  if Text.lower format = "yaml" then
    match settings.toValue with
    | .mapping entries => Yaml.write entries
    | other => Json.write other
  else Json.write settings.toValue

/-- Writes the settings to the file at a path. -/
def saveFile (settings : Settings) (disk : Disk) (current path format : Text) :
    Except SettingsFault Disk :=
  if path.isEmpty then .error (.unwritable (.failed .missing path))
  else
    (disk.writeAs path (Path.join current path)
      (Utf8.encode (settings.encode format))).mapError .unwritable

end Settings

end Scaffold
