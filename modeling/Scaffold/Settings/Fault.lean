import Scaffold.Disk.Access
import Scaffold.Formatter

/-!
# Configuration faults

Why a configuration cannot be loaded or is not valid.
-/

namespace Scaffold

/-- What is wrong with a configuration. -/
inductive SettingsFault where
  | notFound (path : Text)
  | invalidFormat
  | unreadable (fault : AccessFault)
  | unwritable (fault : AccessFault)
  | notMapping (path : Text)
  | blankDirectory (key : Text)
  | unknownFormatter
  | invalidRegistryName
  /-- A key is looked for in a value that has no keys, or is not a name, or what it
  names cannot hold the value. -/
  | wrongKind
  /-- The entries of a value that is no mapping are asked for, or a key names what
  cannot be set. -/
  | noEntries
  /-- A configuration file is not UTF-8. -/
  | notUtf8
  deriving Repr, DecidableEq

namespace SettingsFault

/-- The wording of a fault; the last three have none. -/
def message? : SettingsFault → Option Text
  | notFound path => some ("Configuration file not found: " ++ path)
  | invalidFormat => some "Invalid configuration file format"
  | unreadable fault => some ("Error reading configuration file: " ++ fault.message)
  | unwritable fault => some ("Error saving configuration file: " ++ fault.message)
  | notMapping path => some ("Configuration file must contain a mapping: " ++ path)
  | blankDirectory key => some ("paths." ++ key ++ " must be a non-empty string")
  | unknownFormatter => some ("formatter must be one of: " ++ Formatter.shownChoices)
  | invalidRegistryName => some "registry_filename must be a .go file name"
  | wrongKind | noEntries | notUtf8 => none

end SettingsFault

end Scaffold
