import Scaffold.Contract.Extraction
import Scaffold.Implementation.Merge
import Scaffold.Implementation.Scan
import Scaffold.Module.Search
import Scaffold.Path.Nesting
import Scaffold.Project.Settings

/-!
# The plan for a package

A plan holds the texts of all implementation files of a package before any of
them is written.  A package without contracts has no plan.
-/

namespace Scaffold

/-- Why the contracts of a package cannot be taken from its files. -/
inductive PackageFault where
  | unreadable (path : Text) (fault : AccessFault)
  | unusable (path : Text) (fault : ExtractionFault)
  deriving Repr, DecidableEq

namespace PackageFault

def message : PackageFault → Text
  | unreadable path fault => "failed to read file " ++ path ++ ": " ++ fault.message
  | unusable path fault => fault.message path

end PackageFault

/-- Why there is no plan for a package. -/
inductive PlanFault where
  | contracts (fault : PackageFault)
  | outside (fault : OutsideRoot)
  | scan (fault : ScanFault)
  | cut (path : Text) (fault : Go.CutFault)
  | unknownModule (fault : ModuleFault)
  | format (fault : FormatFault)
  deriving Repr, DecidableEq

namespace PlanFault

def message : PlanFault → Text
  | contracts fault => fault.message
  | outside fault => fault.message
  | scan fault => fault.message
  | cut path fault => fault.message path
  | unknownModule fault => fault.message
  | format fault => fault.message

/-- The fault is a path that cannot be handed to the operating system. -/
def isNullCharacter : PlanFault → Bool
  | contracts (.unreadable _ .nullCharacter) => true
  | _ => false

end PlanFault

/-- What is to be written for a package. -/
structure Plan where
  packagePath : Text
  implementations : List Implementation
  files : List Merged
  deriving Repr, DecidableEq

namespace Contract

/-- The contracts that the files of a package declare, in the order of the
files. -/
def ofPackage (disk : Disk) (root packagePath : Text) :
    List Text → Except PackageFault (List Contract)
  | [] => .ok []
  | fileName :: rest =>
    let path := Path.join packagePath fileName
    match disk.read (Path.within root path) with
    | .error fault => .error (.unreadable path fault)
    | .ok source =>
      match ofSource source with
      | .error fault => .error (.unusable path fault)
      | .ok contracts =>
        match ofPackage disk root packagePath rest with
        | .error fault => .error fault
        | .ok others => .ok (declaredIn packagePath fileName contracts ++ others)

end Contract

namespace Attempt

variable {Fault Other Result : Type}

/-- The attempt with its fault seen as one of another kind. -/
def mapFault (change : Fault → Other) (attempt : Attempt Fault Result) : Attempt Other Result :=
  ⟨attempt.happenings, attempt.result.mapError change⟩

def ofFormatting (formatting : Formatting) : Attempt FormatFault Text :=
  ⟨formatting.calls.map .call, formatting.result⟩

end Attempt

namespace Project

/-- Merges and formats one file of an implementation package. -/
def planFile (project : Project) (disk : Disk) (found : Except ModuleFault Module)
    (path : Text) (implementations : List Implementation) : Attempt PlanFault Merged :=
  match Merge.read (disk.fileAt? (project.fullPath path)) implementations with
  | .error fault => .fail (.cut path fault)
  | .ok (layout, previous?) =>
    match found with
    | .error fault => .fail (.unknownModule fault)
    | .ok module =>
      let merged :=
        Merge.complete ⟨project.settings.root, module⟩ path layout previous? implementations
      ((Attempt.ofFormatting (project.format path merged.text)).mapFault .format).andThen
        fun text => .succeed { merged with text := text }

/-- Merges and formats the files of an implementation package one after the
other. -/
def planFiles (project : Project) (disk : Disk) (found : Except ModuleFault Module)
    (packagePath : Text) : List (Text × List Implementation) → Attempt PlanFault (List Merged)
  | [] => .succeed []
  | (fileName, implementations) :: rest =>
    (project.planFile disk found (Path.join packagePath fileName) implementations).andThen
      fun merged =>
        (project.planFiles disk found packagePath rest).andThen fun others =>
          .succeed (merged :: others)

/-- The plan for a package, given its contracts. -/
def planContracts (project : Project) (disk : Disk) (found : Except ModuleFault Module)
    (directory : Text) (contracts : List Contract) : Attempt PlanFault Plan :=
  let settings := project.settings
  match Path.transplant settings.apiDirectory settings.implementationDirectory directory with
  | .error fault => .fail (.outside fault)
  | .ok packagePath =>
    ((Implementation.scan disk settings.root packagePath contracts).mapFault .scan).andThen
      fun implementations =>
        (project.planFiles disk found packagePath
          (Implementation.groupByFile implementations)).andThen fun files =>
            .succeed ⟨packagePath, implementations, files⟩

/-- The plan for the given files of a package; none without contracts. -/
def planPackage (project : Project) (disk : Disk) (found : Except ModuleFault Module)
    (directory : Text) (fileNames : List Text) : Attempt PlanFault (Option Plan) :=
  match Contract.ofPackage disk project.settings.root directory fileNames with
  | .error fault => .fail (.contracts fault)
  | .ok [] => .succeed none
  | .ok contracts =>
    (project.planContracts disk found directory contracts).andThen fun plan =>
      .succeed (some plan)

end Project

end Scaffold
