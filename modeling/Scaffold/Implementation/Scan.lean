import Scaffold.Attempt
import Scaffold.Disk.Access
import Scaffold.Go.SourceName
import Scaffold.Implementation.Basic
import Scaffold.Implementation.FileFacts

/-!
# What an implementation package has

The source files of a package are read in the order of their names.  A backing
type belongs to the first file that declares it, while the methods of a receiver
type are collected over all files.  The package has the name that its first file
gives it.
-/

namespace Scaffold

/-- A file that could not be read as source. -/
structure ScanFault where
  path : Text
  fault : Go.SourceFault
  deriving Repr, DecidableEq

namespace ScanFault

def message (scanFault : ScanFault) : Text :=
  scanFault.fault.message scanFault.path

end ScanFault

/-- What the files of a package declare together. -/
structure PackageFacts where
  package? : Option Text := none
  declaredIn : List (Text × Text) := []
  methods : List (Text × List Text) := []
  deriving Repr, DecidableEq

namespace PackageFacts

/-- A notice about a file whose package name differs from the one found before. -/
def mismatch (path found expected : Text) : Notice :=
  ⟨.warning, path ++ " declares package " ++ found ++ ", expected " ++ expected⟩

def noticesAbout (path : Text) (known : PackageFacts) (file : FileFacts) : List Notice :=
  match known.package?, file.package? with
  | some expected, some found => if found = expected then [] else [mismatch path found expected]
  | _, _ => []

/-- Declares types in a file, unless an earlier file declares them. -/
def declare (fileName : Text) (types : List Text) (declaredIn : List (Text × Text)) :
    List (Text × Text) :=
  types.foldl
    (fun known type =>
      if known.any fun entry => entry.1 == type then known else known ++ [(type, fileName)])
    declaredIn

def add (fileName : Text) (known : PackageFacts) (file : FileFacts) : PackageFacts where
  package? := known.package?.or file.package?
  declaredIn := declare fileName file.typeNames known.declaredIn
  methods :=
    file.methods.foldl (fun methods entry => withItemsUnder entry.1 entry.2 methods) known.methods

/-- Takes in the files of a package one after the other. -/
def collect (packagePath : Text) (known : PackageFacts) :
    List (Text × Bytes) → Attempt ScanFault PackageFacts
  | [] => .succeed known
  | (fileName, content) :: rest =>
    let path := Path.join packagePath fileName
    match FileFacts.ofSource content with
    | .error fault => .fail ⟨path, fault⟩
    | .ok file =>
      (Attempt.report (noticesAbout path known file)).andThen fun _ =>
        collect packagePath (known.add fileName file) rest

def fileOf? (facts : PackageFacts) (type : Text) : Option Text :=
  (facts.declaredIn.find? fun entry => entry.1 == type).map Prod.snd

/-- The implementation of a contract in the package. -/
def implementation (packageName packagePath : Text) (facts : PackageFacts) (contract : Contract) :
    Implementation :=
  match facts.fileOf? contract.backingName with
  | some fileName =>
    { contract := contract
      packageName := packageName
      packagePath := packagePath
      fileName := fileName
      existing := itemsUnder contract.backingName facts.methods }
  | none =>
    { contract := contract
      packageName := packageName
      packagePath := packagePath
      fileName := contract.defaultFileName
      isNew := true }

end PackageFacts

namespace Implementation

/-- The source files in a directory in the order of their names; a directory
that is not there has none. -/
def sourceFiles (disk : Disk) (directory : Text) : List (Text × Bytes) :=
  if disk.isDirectory directory then
    match disk.locate directory with
    | .error _ => []
    | .ok location =>
      Sorting.sort (fun left right => Text.order left.1 right.1)
        ((disk.filesIn location).filter fun file => Go.isSourceName file.1)
  else []

/-- The implementations of contracts in a package of a project. -/
def scan (disk : Disk) (root packagePath : Text) (contracts : List Contract) :
    Attempt ScanFault (List Implementation) :=
  match contracts with
  | [] => .succeed []
  | first :: _ =>
    (PackageFacts.collect packagePath {}
      (sourceFiles disk (Path.within root packagePath))).andThen fun facts =>
        let packageName := facts.package?.getD (implementationPackageName first.packageName)
        .succeed (contracts.map (facts.implementation packageName packagePath))

/-- The implementations by file, in the order in which the files come first. -/
def groupByFile (implementations : List Implementation) : List (Text × List Implementation) :=
  (Sorting.distinct (implementations.map fileName)).map fun fileName =>
    (fileName, implementations.filter fun implementation => implementation.fileName == fileName)

end Implementation

end Scaffold
