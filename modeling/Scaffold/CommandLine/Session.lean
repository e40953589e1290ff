import Scaffold.CommandLine.Arguments
import Scaffold.Project.Run
import Scaffold.Project.Setup
import Scaffold.Settings.Load
import Scaffold.Terminal.Display

/-!
# A session

A session follows one command line: it loads the settings, runs the generation
and shows what came of it.
-/

namespace Scaffold

namespace CommandLine

/-- How a session ends. -/
inductive Ending where
  | exit (status : Nat)
  /-- A configuration whose values are of the wrong kinds. -/
  | settings (fault : SettingsFault)
  | setup (fault : SetupFault)
  | markup (fault : Terminal.MarkupFault)
  /-- A fault that runs are not documented to end with. -/
  | run (fault : RunFault)
  deriving Repr

/-- What a session meets: the disk, the current directory, the variables of the
environment and the commands that are available. -/
structure Surroundings where
  disk : Disk
  current : Text
  environment : Environment
  toolbox : Toolbox

/-- A session: the disk as it leaves it, what it shows and what happens in it. -/
structure Session where
  disk : Disk
  output : Text := []
  happenings : List Happening := []
  ending : Ending := .exit 0

namespace Ending

/-- The exit status; one for a fault that is not shown. -/
def status : Ending → Nat
  | exit status => status
  | _ => 1

end Ending

namespace Session

def programName : Text := "implgen"

def finish (ending : Ending) (session : Session) : Session :=
  { session with ending := ending }

def say (session : Session) (shown : Terminal.Shown) (next : Session → Session) : Session :=
  match shown with
  | .ok text => next { session with output := session.output ++ text }
  | .error fault => session.finish (.markup fault)

def fail (look : Terminal.Look) (session : Session) (message : Text) : Session :=
  session.say (Terminal.failure look message) (finish (.exit 1))

/-- Ends with a fault of the settings. -/
def refuse (look : Terminal.Look) (session : Session) (fault : SettingsFault) : Session :=
  match fault.message? with
  | some message => session.fail look ("Configuration error: " ++ message)
  | none => session.finish (.settings fault)

/-- Runs a project and shows the report. -/
def generate (look : Terminal.Look) (project : Project) (session : Session) : Session :=
  match project.run session.disk with
  | (progress, result) =>
    let session :=
      { session with
        disk := progress.disk
        happenings := session.happenings ++ progress.happenings }
    match result with
    | .ok report => session.say (Terminal.report look report) (finish (.exit 0))
    | .error fault =>
      if fault.isDocumented then session.fail look fault.message else session.finish (.run fault)

/-- What the header says below the title. -/
def direction (settings : Settings) : Text :=
  settings.apiDirectory.shown ++ " -> " ++ settings.implementationDirectory.shown

/-- Shows the header, and that files are not written if they are not. -/
def announce (look : Terminal.Look) (settings : Settings) (session : Session)
    (next : Session → Session) : Session :=
  session.say (Terminal.header look programName (direction settings)) fun session =>
    if settings.dryRun.isNothing then next session
    else session.say (Terminal.remark look "Dry run: no files will be written") next

/-- Follows what is given on the command line. -/
def proceed (surroundings : Surroundings) (arguments : Arguments) : Session :=
  let look : Terminal.Look := if arguments.isPlain then .plain else .decorated
  let attempt := Settings.load surroundings.disk surroundings.current
    { file? := arguments.config?
      environment? := some surroundings.environment
      explicit? := some arguments.overrides }
  let session : Session := { disk := surroundings.disk, happenings := attempt.happenings }
  match attempt.result with
  | .error fault => session.refuse look fault
  | .ok settings =>
    session.announce look settings fun session =>
      match Project.setUp surroundings.current surroundings.toolbox settings with
      | .error fault => session.finish (.setup fault)
      | .ok project => session.generate look project

def run (surroundings : Surroundings) (texts : List Text) : Session :=
  match Reading.ofTexts texts with
  | .misuse => { disk := surroundings.disk, ending := .exit 2 }
  | .information _ => { disk := surroundings.disk }
  | .given arguments => proceed surroundings arguments

end Session

end CommandLine

end Scaffold
