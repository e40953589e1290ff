import Scaffold.Disk.Basic
import Scaffold.Path.Basic
import Scaffold.Text.Quoted

/-!
# Access by path

A path is followed component by component, and every component but the last must
be a directory that is there.  What goes wrong is reported together with the
path, as an operating system would report it.
-/

namespace Scaffold

/-- What an operating system finds wrong with a path. -/
inductive PathError where
  | missing
  | exists
  | notDirectory
  | isDirectory
  deriving Repr, DecidableEq

namespace PathError

/-- The number and the wording of an error. -/
def message : PathError → Text
  | missing => "[Errno 2] No such file or directory"
  | .exists => "[Errno 17] File exists"
  | notDirectory => "[Errno 20] Not a directory"
  | isDirectory => "[Errno 21] Is a directory"

end PathError

/-- Why a path cannot be used. -/
inductive AccessFault where
  | failed (error : PathError) (path : Text)
  /-- A path that holds the character zero never reaches the operating system. -/
  | nullCharacter
  deriving Repr, DecidableEq

namespace AccessFault

/-- The error with the path, or the complaint about the path itself. -/
def message : AccessFault → Text
  | failed error path => error.message ++ ": " ++ Text.quoted path
  | nullCharacter => "embedded null byte"

end AccessFault

namespace Disk

/-- The path holds the character zero. -/
def holdsNull (path : Text) : Bool :=
  path.contains (Char.ofNat 0)

/-- Follows components from a location on. -/
def walk (disk : Disk) (location : Location) : List Text → Except PathError Location
  | [] => .ok location
  | component :: rest =>
    match disk.entry? location with
    | none => .error .missing
    | some (.file _) => .error .notDirectory
    | some .directory =>
      walk disk (if component = Path.up then location.dropLast else location ++ [component]) rest

def endsInSlash (path : Text) : Bool :=
  path.getLast? == some '/'

/-- The path ends in a component that names the directory itself. -/
def endsInDot (path : Text) : Bool :=
  (Text.splitOn '/' path).getLast? == some Path.here

/-- The location of an absolute path.  A path that ends in a slash or a dot
never leads to a file. -/
def locate (disk : Disk) (path : Text) : Except PathError Location :=
  match disk.walk [] (Path.components path) with
  | .error error => .error error
  | .ok location =>
    if (endsInSlash path || endsInDot path) && (disk.content? location).isSome then
      .error .notDirectory
    else .ok location

/-- What stands at an absolute path; nothing where the path leads nowhere. -/
def at? (disk : Disk) (path : Text) : Option Entry :=
  if holdsNull path then none
  else
    match disk.locate path with
    | .error _ => none
    | .ok location => disk.entry? location

/-- A directory stands at an absolute path. -/
def isDirectory (disk : Disk) (path : Text) : Bool :=
  disk.at? path == some .directory

/-- The content of the file at an absolute path, if there is one. -/
def fileAt? (disk : Disk) (path : Text) : Option Bytes :=
  match disk.at? path with
  | some (.file content) => some content
  | _ => none

/-- Reads the file at an absolute path, which is reported under another one. -/
def readAs (disk : Disk) (shown path : Text) : Except AccessFault Bytes :=
  if holdsNull path then .error .nullCharacter
  else
    match disk.locate path with
    | .error error => .error (.failed error shown)
    | .ok location =>
      match disk.entry? location with
      | none => .error (.failed .missing shown)
      | some .directory => .error (.failed .isDirectory shown)
      | some (.file content) => .ok content

/-- Reads the file at an absolute path. -/
def read (disk : Disk) (path : Text) : Except AccessFault Bytes :=
  disk.readAs path path

/-- Writes the file at an absolute path, which is reported under another one.  A
path that ends in a slash counts as a directory, whatever stands there. -/
def writeAs (disk : Disk) (shown path : Text) (content : Bytes) : Except AccessFault Disk :=
  if holdsNull path then .error .nullCharacter
  else
    match disk.walk [] (Path.components path) with
    | .error error => .error (.failed error shown)
    | .ok location =>
      if disk.holdsDirectory location then .error (.failed .isDirectory shown)
      else if !disk.holdsDirectory location.dropLast then .error (.failed .missing shown)
      else if endsInSlash path then .error (.failed .isDirectory shown)
      else if endsInDot path then
        .error (.failed (if (disk.content? location).isSome then .notDirectory else .missing) shown)
      else .ok (disk.put location (.file content))

/-- Writes the file at an absolute path. -/
def write (disk : Disk) (path : Text) (content : Bytes) : Except AccessFault Disk :=
  disk.writeAs path path content

/-- Makes one directory, given the components on the way to it. -/
def makeOne (disk : Disk) (components : List Text) : Except PathError Disk :=
  match disk.walk [] components with
  | .error error => .error error
  | .ok location =>
    match disk.entry? location with
    | some _ => .error .exists
    | none => .ok (disk.put location .directory)

/-- The absolute path of some components. -/
def shownComponents (components : List Text) : Text :=
  '/' :: Text.join ['/'] components

/-- Takes an attempt to make a directory as it is, unless the directory is there
already. -/
def orPresent (disk : Disk) (components : List Text) :
    Except PathError Disk → Except AccessFault Disk
  | .ok made => .ok made
  | .error error =>
    let path := shownComponents components
    if disk.isDirectory path then .ok disk else .error (.failed error path)

/-- Makes a directory and those on the way to it, the components being given
from the last to the first.  The directories on the way are made only where one
is missing. -/
def makeAll (disk : Disk) : List Text → Except AccessFault Disk
  | [] => .ok disk
  | last :: parents =>
    let components := (last :: parents).reverse
    match disk.makeOne components with
    | .error .missing =>
      match disk.makeAll parents with
      | .error fault => .error fault
      | .ok prepared => prepared.orPresent components (prepared.makeOne components)
    | attempt => disk.orPresent components attempt

/-- Makes the directory at an absolute path and those on the way to it. -/
def makeDirectories (disk : Disk) (path : Text) : Except AccessFault Disk :=
  if holdsNull path then .error .nullCharacter
  else disk.makeAll (Path.components path).reverse

end Disk

end Scaffold
