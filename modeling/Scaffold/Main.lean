import Scaffold.CommandLine.Session

/-!
# The program

The files that the program may see are named on standard input, one path on a
line.  It reads them, follows the command line on what it has read, writes what
has changed, and shows the rest.  External formatters are not run.
-/

namespace Scaffold

namespace Program

def bytesOf (content : ByteArray) : Bytes :=
  content.toList

/-- The text of a string from outside. -/
def textOf (string : String) : Text :=
  string.toList

/-- The disk with one more file; a path that cannot be used adds none. -/
def add (disk : Disk) (path : Text) (content : Bytes) : Disk :=
  match disk.makeDirectories (Path.parent path) with
  | .error _ => disk
  | .ok prepared => ((prepared.write path content).toOption).getD prepared

/-- Reads the files at some paths, which are seen from a current directory. -/
def readDisk (current : Text) (paths : List String) : IO Disk :=
  paths.foldlM
    (fun (disk : Disk) (path : String) => do
      let content ← IO.FS.readBinFile path
      return add disk (Path.resolve current (textOf path)) (bytesOf content))
    (((({} : Disk).makeDirectories current).toOption).getD {})

/-- Writes files at their locations. -/
def writeFiles (files : List (Location × Bytes)) : IO Unit :=
  files.forM fun file => do
    IO.FS.createDirAll (String.ofList (Disk.shownComponents file.1.dropLast))
    IO.FS.writeBinFile (String.ofList (Disk.shownComponents file.1)) ⟨file.2.toArray⟩

/-- The variables of the environment that set directories. -/
def environment : IO Environment := do
  let values ← Environment.directoryVariables.mapM fun entry => do
    let value? ← IO.getEnv (String.ofList entry.1)
    return (entry.1, (value?.map textOf).getD [])
  return values

/-- A toolbox whose commands are all missing. -/
def toolbox : Toolbox :=
  .ofScript { failure? := some Toolbox.missingExecutable }

end Program

end Scaffold

open Scaffold

def main (arguments : List String) : IO UInt32 := do
  let current := Program.textOf (toString (← IO.currentDir))
  let named ← (← IO.getStdin).lines
  let disk ← Program.readDisk current (named.toList.filter fun path => !path.isEmpty)
  let session := CommandLine.Session.run
    ⟨disk, current, ← Program.environment, Program.toolbox⟩ (arguments.map Program.textOf)
  Program.writeFiles (disk.changes session.disk)
  for notice in session.happenings.filterMap Happening.notice? do
    IO.eprintln (String.ofList (notice.severity.name ++ ": " ++ notice.message))
  IO.print (String.ofList session.output)
  return UInt32.ofNat session.ending.status
