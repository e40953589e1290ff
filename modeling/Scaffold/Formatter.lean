import Scaffold.Path.Basic
import Scaffold.Text.Blank
import Scaffold.Text.Quoted

/-!
# Formatters

Generated text may be passed through an external command, or through a formatter
that is handed over.  Which commands there are and what they answer is given by
a toolbox.
-/

namespace Scaffold

/-- What comes of running a command. -/
inductive CommandOutcome where
  /-- The command ended with a status, its output and its error output. -/
  | finished (status : Int) (output errors : Text)
  /-- The command could not be run to its end. -/
  | failed (reason : Text)
  deriving Repr, DecidableEq

/-- The formatting commands. -/
inductive FormatCommand where
  | goimports
  | gofmt
  deriving Repr, DecidableEq

namespace FormatCommand

def name : FormatCommand → Text
  | goimports => "goimports"
  | gofmt => "gofmt"

end FormatCommand

/-- Why a text was not formatted. -/
inductive FormatFault where
  | notRun (command path reason : Text)
  | rejected (command path errors : Text)
  /-- What a formatter that is no command complains about. -/
  | refused (complaint : Text)
  deriving Repr, DecidableEq

namespace FormatFault

def message : FormatFault → Text
  | notRun command path reason => "failed to run " ++ command ++ " on " ++ path ++ ": " ++ reason
  | rejected command path errors => command ++ " rejected " ++ path ++ ": " ++ errors
  | refused complaint => complaint

end FormatFault

/-- A formatter: none, a command with its executable, or any other way to make a
text for a path of a text. -/
inductive Formatter where
  | none
  | command (command : FormatCommand) (executable : Text)
  | other (format : Option Text → Text → Except FormatFault Text)

/-- What there is for formatting: the executable of each command, if it is
available, what running an executable with arguments on an input gives, and the
formatter that is handed over, if there is one. -/
structure Toolbox where
  executable? : Text → Option Text
  run : List Text → Text → CommandOutcome
  formatter? : Option Formatter := none

/-- What formatting comes to: the arguments of the commands that were run, and
the formatted text. -/
structure Formatting where
  calls : List (List Text) := []
  result : Except FormatFault Text

namespace Formatter

/-- The names by which formatters are chosen. -/
def choices : List Text := ["auto", "goimports", "gofmt", "none"]

def shownChoices : Text := Text.quotedList choices

/-- The formatter of a command; without a known executable its name is used. -/
def ofCommand (toolbox : Toolbox) (command : FormatCommand) : Formatter :=
  .command command ((toolbox.executable? command.name).getD command.name)

/-- The first command that is available. -/
def automatic (toolbox : Toolbox) : Formatter :=
  match toolbox.executable? FormatCommand.goimports.name with
  | some executable => .command .goimports executable
  | Option.none =>
    match toolbox.executable? FormatCommand.gofmt.name with
    | some executable => .command .gofmt executable
    | Option.none => .none

def choose? (toolbox : Toolbox) (choice : Text) : Option Formatter :=
  if choice = "auto" then some (automatic toolbox)
  else if choice = "goimports" then some (ofCommand toolbox .goimports)
  else if choice = "gofmt" then some (ofCommand toolbox .gofmt)
  else if choice = "none" then some .none
  else Option.none

/-- The name of a formatter; without a command it has the name of none. -/
def name : Formatter → Text
  | none | other _ => "none"
  | command which _ => which.name

def executable? : Formatter → Option Text
  | none | other _ => Option.none
  | command _ executable => some executable

/-- The arguments for a file, the executable included; one of the commands is
told the directory of the file. -/
def arguments (command : FormatCommand) (executable : Text) (path? : Option Text) : List Text :=
  match command, path? with
  | .goimports, some path => [executable, "-srcdir", Path.parent path]
  | _, _ => [executable]

def shownPath (path? : Option Text) : Text :=
  path?.getD "None"

/-- What the outcome of a command means. -/
def interpret (command path : Text) : CommandOutcome → Except FormatFault Text
  | .failed reason => .error (.notRun command path reason)
  | .finished status output errors =>
    if status = 0 then .ok output else .error (.rejected command path (Text.trim errors))

def format (formatter : Formatter) (toolbox : Toolbox) (path? : Option Text) (text : Text) :
    Formatting :=
  match formatter with
  | none => { result := .ok text }
  | command which executable =>
    let call := arguments which executable path?
    { calls := [call]
      result := interpret which.name (shownPath path?) (toolbox.run call text) }
  | other apply => { result := apply path? text }

end Formatter

/-- A toolbox whose commands all behave in one given way. -/
structure Toolbox.Script where
  /-- The commands that are available. -/
  available : List Text := []
  /-- What is added to the input to give the output. -/
  appended : Text := []
  status : Int := 0
  /-- An input that holds this text ends the command with status two. -/
  refused? : Option Text := Option.none
  errors : Text := []
  /-- The reason why the command cannot be run, given its arguments. -/
  failure? : Option (List Text → Text) := Option.none

namespace Toolbox

/-- The reason given for a command whose executable is missing. -/
def missingExecutable (arguments : List Text) : Text :=
  "[Errno 2] No such file or directory: " ++ Text.quoted (arguments.headD [])

/-- The reason given for a command that takes too long. -/
def timedOut (arguments : List Text) : Text :=
  "Command '" ++ Text.quotedList arguments ++ "' timed out after 60 seconds"

/-- The toolbox that follows a script. -/
def ofScript (script : Script) : Toolbox where
  executable? command :=
    if command ∈ script.available then some ("/bin/" ++ command) else Option.none
  run arguments input :=
    match script.failure? with
    | some reason => .failed (reason arguments)
    | Option.none =>
      let refuses :=
        match script.refused? with
        | some wanted => Text.occursIn wanted input
        | Option.none => false
      .finished (if refuses then 2 else script.status) (input ++ script.appended) script.errors

def empty : Toolbox := ofScript {}

end Toolbox

end Scaffold
