import Scaffold.Disk.Access
import Scaffold.Module.Manifest
import Scaffold.Module.Resolver

/-!
# The module of a directory

A directory belongs to the module of the nearest manifest at or above it.  A
nearest manifest that names no module is an error: the search does not go on
above it.
-/

namespace Scaffold

/-- Why the module of a directory is not known. -/
inductive ModuleFault where
  | noManifest (start : Text)
  | noDirective (manifest : Text)
  | notUtf8 (manifest : Text) (fault : Utf8Fault)
  deriving Repr, DecidableEq

namespace ModuleFault

def message : ModuleFault → Text
  | noManifest start =>
    "could not find a " ++ Manifest.fileName ++ " in " ++ start ++ " or any parent directory"
  | noDirective manifest => manifest ++ " has no module directive"
  | notUtf8 manifest fault => manifest ++ " is not valid UTF-8: " ++ fault.message

end ModuleFault

namespace Module

/-- The module that the manifest of a directory names. -/
def ofManifest (directory : Text) (manifest : Text) (content : Bytes) :
    Except ModuleFault Module :=
  match Utf8.decode content with
  | .error fault => .error (.notUtf8 manifest fault)
  | .ok text =>
    match Manifest.modulePath? (Text.universalNewlines text) with
    | none | some [] => .error (.noDirective manifest)
    | some path => .ok ⟨path, directory⟩

/-- The module that the manifest in a directory names, if there is a manifest.
The directory is given by its components. -/
def ofDirectory? (disk : Disk) (components : List Text) : Option (Except ModuleFault Module) :=
  let directory := Disk.shownComponents components
  let manifest := Path.within directory Manifest.fileName
  (disk.fileAt? manifest).map (ofManifest directory manifest)

/-- Searches a directory, given by its components from the last to the first,
and the directories above it. -/
def search (disk : Disk) (start : Text) : List Text → Except ModuleFault Module
  | [] => (ofDirectory? disk []).getD (.error (.noManifest start))
  | last :: parents =>
    match ofDirectory? disk (last :: parents).reverse with
    | some found => found
    | none => search disk start parents

/-- The module of a directory, which is seen from a current directory. -/
def find (disk : Disk) (current start : Text) : Except ModuleFault Module :=
  search disk (Path.tidy start) (Path.components (Path.resolve current start)).reverse

end Module

end Scaffold
