import Scaffold.Disk.Access
import Scaffold.Go.SourceName
import Scaffold.Sorting

/-!
# Crawling a directory

The source files anywhere below a directory, grouped by the directory that holds
them.  Directories and the names of their files are in ascending order.
-/

namespace Scaffold

/-- Why a directory cannot be crawled. -/
inductive CrawlFault where
  | notFound (directory : Text)
  /-- The files found are not written as below the root of the project. -/
  | outside (path root : Text)
  deriving Repr, DecidableEq

namespace CrawlFault

def message : CrawlFault → Text
  | notFound directory => "API directory not found: " ++ directory
  | outside path root =>
    Text.quoted path ++ " is not in the subpath of " ++ Text.quoted root ++
      " OR one path is relative and the other is absolute."

end CrawlFault

/-- A package: its directory and the names of its source files. -/
structure Package where
  directory : Text
  fileNames : List Text
  deriving Repr, DecidableEq

namespace Package

/-- A source file below a crawled directory: the way to the directory that
holds it, and its name. -/
structure Found where
  way : Location
  name : Text
  deriving Repr, DecidableEq

/-- The source files below a location. -/
def found (disk : Disk) (location : Location) : List Found :=
  (disk.filesBelow location).filterMap fun item =>
    match item.1.reverse with
    | [] => none
    | name :: way => if Go.isSourceName name then some ⟨way.reverse, name⟩ else none

/-- The directory reached from some components by a way. -/
def directoryAt (components : List Text) (way : Location) : Text :=
  match components ++ way with
  | [] => Path.here
  | parts => Text.join ['/'] parts

def group (files : List (Text × Text)) : List Package :=
  let directories := Sorting.sort Text.order (Sorting.distinct (files.map Prod.fst))
  directories.map fun directory =>
    ⟨directory, Sorting.sort Text.order
      ((files.filter fun file => file.1 == directory).map Prod.snd)⟩

/-- The packages below a directory of a project.  The directories of packages
are seen from the root. -/
def crawl (disk : Disk) (root directory : Text) : Except CrawlFault (List Package) :=
  let base := Path.within root directory
  if disk.isDirectory base then
    match disk.locate base with
    | .error _ => .error (.notFound base)
    | .ok location =>
      let files := found disk location
      let shown (path : Text) (way : Location) :=
        Path.rootSlashes path ++ Text.join ['/'] (Path.components path ++ way)
      match files with
      | [] => .ok []
      | first :: _ =>
        if Path.isBelow root base then
          let relative := (Path.components base).drop (Path.components root).length
          .ok (group (files.map fun file => (directoryAt relative file.way, file.name)))
        else .error (.outside (shown base first.way) (shown root []))
  else .error (.notFound base)

end Package

end Scaffold
