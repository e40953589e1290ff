import Scaffold.Text.Utf8

/-!
# The disk

A disk maps locations to files and directories.  A location is the list of names
on the way from the root directory, which is always there.  Only the entry of a
location is ever looked at, so the order of the entries does not matter.
-/

namespace Scaffold

/-- The names on the way from the root directory. -/
abbrev Location := List Text

/-- What stands at a location. -/
inductive Entry where
  | file (content : Bytes)
  | directory
  deriving Repr, DecidableEq

/-- Files and directories by location. -/
structure Disk where
  entries : List (Location × Entry) := []
  deriving Repr, DecidableEq

namespace Disk

def find? (location : Location) : List (Location × Entry) → Option Entry
  | [] => none
  | (place, entry) :: rest => if place = location then some entry else find? location rest

def entry? (disk : Disk) (location : Location) : Option Entry :=
  if location.isEmpty then some .directory else find? location disk.entries

/-- Replaces the first entry of a location, or adds one. -/
def replace (location : Location) (entry : Entry) :
    List (Location × Entry) → List (Location × Entry)
  | [] => [(location, entry)]
  | (place, present) :: rest =>
    if place = location then (place, entry) :: rest
    else (place, present) :: replace location entry rest

/-- The disk with an entry at a location. -/
def put (location : Location) (entry : Entry) (disk : Disk) : Disk :=
  ⟨replace location entry disk.entries⟩

/-- The disk without a location and everything below it. -/
def remove (location : Location) (disk : Disk) : Disk :=
  ⟨disk.entries.filter fun item => !location.isPrefixOf item.1⟩

/-- A directory stands at a location. -/
def holdsDirectory (disk : Disk) (location : Location) : Bool :=
  disk.entry? location == some .directory

/-- The content of the file at a location. -/
def content? (disk : Disk) (location : Location) : Option Bytes :=
  match disk.entry? location with
  | some (.file content) => some content
  | _ => none

/-- The files below a location: the way to each from there and its content. -/
def filesBelow (disk : Disk) (location : Location) : List (Location × Bytes) :=
  disk.entries.filterMap fun item =>
    match item with
    | (place, .file content) =>
      if location.isPrefixOf place then some (place.drop location.length, content) else none
    | _ => none

/-- The files of a disk that are not on an earlier one, or differ from it: where
each is and its content. -/
def changes (before after : Disk) : List (Location × Bytes) :=
  (after.filesBelow []).filter fun file => before.content? file.1 != some file.2

/-- The names and contents of the files directly inside a directory. -/
def filesIn (disk : Disk) (location : Location) : List (Text × Bytes) :=
  (disk.filesBelow location).filterMap fun item =>
    match item.1 with
    | [name] => some (name, item.2)
    | _ => none

end Disk

end Scaffold
