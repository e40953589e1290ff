import Scaffold.Project.Crawl
import Scaffold.Project.Plan
import Scaffold.Project.Report
import Scaffold.Registry

/-!
# Runs

A run handles one package after the other: it plans all files of the package and
then writes those that changed.  The registry comes last.  The first fault ends
the run, and what was written before it stays.
-/

namespace Scaffold

/-- Why the registry cannot be generated. -/
inductive RegistryFault where
  | unknownModule (fault : ModuleFault)
  | format (fault : FormatFault)
  | notUtf8 (fault : Utf8Fault)
  deriving Repr, DecidableEq

namespace RegistryFault

def message : RegistryFault → Text
  | unknownModule fault => fault.message
  | format fault => fault.message
  | notUtf8 fault => fault.message

end RegistryFault

/-- Why a run ends early. -/
inductive RunFault where
  | walk (directory : Text) (fault : CrawlFault)
  | package (directory : Text) (fault : PlanFault)
  | registry (path : Text) (fault : RegistryFault)
  | write (path : Text) (fault : AccessFault)
  /-- The packages found are not below the root of the project. -/
  | outside (fault : CrawlFault)
  /-- A path that cannot be handed to the operating system. -/
  | nullCharacter
  /-- A contract that no file declares. -/
  | directive (fault : Registry.DirectiveFault)
  deriving Repr, DecidableEq

namespace RunFault

def message : RunFault → Text
  | walk directory fault => "failed to walk API directory " ++ directory ++ ": " ++ fault.message
  | package directory fault =>
    "failed to generate package " ++ directory ++ ": " ++ fault.message
  | registry path fault => "failed to generate registry file " ++ path ++ ": " ++ fault.message
  | write path fault => "failed to write " ++ path ++ ": " ++ fault.message
  | outside fault => fault.message
  | nullCharacter => AccessFault.nullCharacter.message
  | directive fault => fault.message

/-- The fault is one that runs are documented to end with. -/
def isDocumented : RunFault → Bool
  | walk _ _ | package _ _ | registry _ _ | write _ _ => true
  | outside _ | nullCharacter | directive _ => false

def ofCrawl (directory : Text) : CrawlFault → RunFault
  | .notFound base => walk directory (.notFound base)
  | .outside path root => outside (.outside path root)

def ofPlan (directory : Text) (fault : PlanFault) : RunFault :=
  if fault.isNullCharacter then nullCharacter else package directory fault

def ofAccess (path : Text) : AccessFault → RunFault
  | .nullCharacter => nullCharacter
  | fault => write path fault

end RunFault

/-- How far a run has come. -/
structure Progress where
  disk : Disk
  happenings : List Happening := []
  files : List Outcome := []
  implementations : List Implementation := []
  packages : Nat := 0
  deriving Repr, DecidableEq

namespace Progress

/-- The progress with more that has happened. -/
def report (progress : Progress) (happenings : List Happening) : Progress :=
  { progress with happenings := progress.happenings ++ happenings }

/-- The progress with one more notice of what was written. -/
def inform (progress : Progress) (message : Text) : Progress :=
  progress.report [.notice ⟨.info, message⟩]

end Progress

/-- What a step of a run comes to: how far the run has come, and a result unless
the step failed. -/
abbrev Step (Result : Type) := Progress × Except RunFault Result

namespace Merged

def status (merged : Merged) : Status :=
  if !merged.isChanged then .unchanged else if merged.isCreated then .created else .updated

/-- What becomes of a merged file. -/
def outcome (merged : Merged) : Outcome :=
  ⟨merged.path, merged.status, merged.newTypes, merged.newMethods⟩

/-- The notice about a file that would be written. -/
def intention (merged : Merged) : Text :=
  "Would write " ++ merged.path ++ " (" ++ merged.status.name ++ ")"

/-- The notice about a file that was written. -/
def achievement (merged : Merged) : Text :=
  let verb : Text := if merged.isCreated then "Created" else "Updated"
  verb ++ " " ++ merged.path ++ " (" ++ Text.ofNat merged.newTypes ++ " new type(s), " ++
    Text.ofNat merged.newMethods ++ " new method(s))"

end Merged

namespace Project

/-- Writes a file to the disk, making the directories on the way to it. -/
def store (project : Project) (disk : Disk) (path text : Text) : Except AccessFault Disk :=
  let full := project.fullPath path
  match disk.makeDirectories (Path.parent full) with
  | .error fault => .error fault
  | .ok prepared => prepared.write full (Utf8.encode text)

/-- Writes a merged file if it changed, or only tells so in a dry run. -/
def write (project : Project) (progress : Progress) (merged : Merged) : Step Outcome :=
  let outcome := merged.outcome
  if !merged.isChanged then (progress, .ok outcome)
  else if project.settings.isDryRun then (progress.inform merged.intention, .ok outcome)
  else
    match project.store progress.disk merged.path merged.text with
    | .error fault => (progress, .error (.ofAccess merged.path fault))
    | .ok disk => ({ progress with disk := disk }.inform merged.achievement, .ok outcome)

/-- Writes the files of a package one after the other. -/
def writeFiles (project : Project) (progress : Progress) : List Merged → Step Unit
  | [] => (progress, .ok ())
  | merged :: rest =>
    match project.write progress merged with
    | (next, .error fault) => (next, .error fault)
    | (next, .ok outcome) =>
      project.writeFiles { next with files := next.files ++ [outcome] } rest

/-- Plans a package and writes its files. -/
def generatePackage (project : Project) (found : Except ModuleFault Module)
    (progress : Progress) (package : Package) : Step Unit :=
  let attempt := project.planPackage progress.disk found package.directory package.fileNames
  let progress := progress.report attempt.happenings
  match attempt.result with
  | .error fault => (progress, .error (.ofPlan package.directory fault))
  | .ok none => (progress, .ok ())
  | .ok (some plan) =>
    project.writeFiles
      { progress with
        packages := progress.packages + 1
        implementations := progress.implementations ++ plan.implementations }
      plan.files

/-- Handles packages one after the other. -/
def generatePackages (project : Project) (found : Except ModuleFault Module)
    (progress : Progress) : List Package → Step Unit
  | [] => (progress, .ok ())
  | package :: rest =>
    match project.generatePackage found progress package with
    | (next, .error fault) => (next, .error fault)
    | (next, .ok ()) => project.generatePackages found next rest

/-- The registry as it was, with universal newlines. -/
def registryText? (project : Project) (disk : Disk) (path : Text) :
    Except RegistryFault (Option Text) :=
  match disk.fileAt? (project.fullPath path) with
  | none => .ok none
  | some content =>
    match Utf8.decode content with
    | .error fault => .error (.notUtf8 fault)
    | .ok text => .ok (some (Text.universalNewlines text))

/-- Renders and formats the registry. -/
def planRegistry (project : Project) (disk : Disk) (found : Except ModuleFault Module)
    (implementations : List Implementation) : Attempt RunFault Merged :=
  let settings := project.settings
  let directory := settings.implementationDirectory
  let path := settings.registryPath
  match found with
  | .error fault => .fail (.registry path (.unknownModule fault))
  | .ok module =>
    if (Registry.visited directory implementations).any Disk.holdsNull then .fail .nullCharacter
    else
      match Registry.render ⟨settings.root, module⟩ project.current directory none
          implementations with
      | .error fault => .fail (.directive fault)
      | .ok rendered =>
        ((Attempt.ofFormatting (project.format path rendered)).mapFault
          fun fault => RunFault.registry path (.format fault)).andThen fun text =>
            match project.registryText? disk path with
            | .error fault => .fail (.registry path fault)
            | .ok previous? =>
              .succeed
                { path := path
                  text := text
                  previous? := previous?
                  newTypes := 0
                  newMethods := 0 }

/-- Writes the registry, unless there is nothing to register. -/
def generateRegistry (project : Project) (found : Except ModuleFault Module)
    (progress : Progress) : Step (Option Outcome) :=
  if progress.implementations.isEmpty then (progress, .ok none)
  else
    let attempt := project.planRegistry progress.disk found progress.implementations
    let progress := progress.report attempt.happenings
    match attempt.result with
    | .error fault => (progress, .error fault)
    | .ok merged =>
      match project.write progress merged with
      | (next, .error fault) => (next, .error fault)
      | (next, .ok outcome) => (next, .ok (some outcome))

/-- Generates the packages below the directory of the contracts, and then the
registry. -/
def run (project : Project) (disk : Disk) : Step Report :=
  let settings := project.settings
  let start : Progress := { disk := disk }
  match Package.crawl disk settings.root settings.apiDirectory with
  | .error fault => (start, .error (.ofCrawl settings.apiDirectory fault))
  | .ok packages =>
    let found := Module.find disk project.current settings.root
    match project.generatePackages found start packages with
    | (progress, .error fault) => (progress, .error fault)
    | (progress, .ok ()) =>
      match project.generateRegistry found progress with
      | (final, .error fault) => (final, .error fault)
      | (final, .ok registry?) =>
        (final,
          .ok
            { files := final.files
              registry? := registry?
              packages := final.packages
              contracts := final.implementations.length
              isDryRun := settings.isDryRun })

end Project

end Scaffold
