import Scaffold.CommandLine.Word
import Scaffold.Formatter
import Scaffold.Settings.Validation

/-!
# Reading the command line

Flags are followed from the left to the right, the last value of a flag counting.
A flag that asks for help or for the version ends the reading, even if a word
before it is not understood.  Letters of flags that stand alone may be written
together.
-/

namespace Scaffold

namespace CommandLine

/-- What is given on the command line. -/
structure Arguments where
  root? : Option Text := none
  api? : Option Text := none
  implementation? : Option Text := none
  formatter? : Option Text := none
  config? : Option Text := none
  isDryRun : Bool := false
  isVerbose : Bool := false
  isPlain : Bool := false
  deriving Repr, DecidableEq

/-- What comes of reading a command line. -/
inductive Reading where
  | given (arguments : Arguments)
  /-- Help or the version is asked for. -/
  | information (flag : Flag)
  | misuse
  deriving Repr, DecidableEq

namespace Arguments

/-- Follows a flag that stands alone. -/
def switchOn (arguments : Arguments) (flag : Flag) : Arguments :=
  match flag with
  | .dryRun => { arguments with isDryRun := true }
  | .verbose => { arguments with isVerbose := true }
  | .noDecoration => { arguments with isPlain := true }
  | _ => arguments

/-- Follows a flag with its value; none if the flag does not take the value. -/
def assign? (arguments : Arguments) (flag : Flag) (value : Text) : Option Arguments :=
  match flag with
  | .root => some { arguments with root? := some value }
  | .api => some { arguments with api? := some value }
  | .implementation => some { arguments with implementation? := some value }
  | .config => some { arguments with config? := some value }
  | .formatter =>
    if Formatter.choices.contains value then some { arguments with formatter? := some value }
    else none
  | _ => some arguments

end Arguments

/-- A step of following a command line. -/
inductive Step where
  | alone (flag : Flag)
  | assign (flag : Flag) (value : Text)
  /-- Something that is not understood. -/
  | strange
  /-- A flag without its value, or with one that it does not take. -/
  | wrong
  deriving Repr, DecidableEq

/-- What a word with a flag comes to: steps, and perhaps a flag that takes the
next word as its value. -/
structure Cluster where
  steps : List Step := []
  open? : Option Flag := none
  deriving Repr, DecidableEq

namespace Cluster

def ofFlag (flag : Flag) : Cluster :=
  if flag.takesValue then { open? := some flag } else { steps := [.alone flag] }

/-- A flag that takes a value, and all that is attached to its letter. -/
def ofValue (flag : Flag) : Text → Cluster
  | [] => { open? := some flag }
  | '=' :: value => { steps := [.assign flag value] }
  | value => { steps := [.assign flag value] }

/-- The cluster with a step before it. -/
def after (step : Step) (cluster : Cluster) : Cluster :=
  { cluster with steps := step :: cluster.steps }

/-- What the letters after one that stands alone come to; none if something else
is attached. -/
def ofLetters? : Text → Option Cluster
  | [] => some {}
  | letter :: rest =>
    if letter = '-' || letter = '=' then none
    else
      match Flag.ofLetter? letter with
      | none => some { steps := [.strange] }
      | some flag =>
        if flag.takesValue then some (ofValue flag rest)
        else (ofLetters? rest).map (after (.alone flag))

/-- What a flag and the text attached to it come to; none if nothing may be
attached. -/
def ofAttached? (spelling : Spelling) (flag : Flag) : Option Attached → Option Cluster
  | none => some (ofFlag flag)
  | some attached =>
    if flag.takesValue then some { steps := [.assign flag attached.text] }
    else if spelling = .long || attached.isJoined || attached.text.isEmpty then none
    else (ofLetters? attached.text).map (after (.alone flag))

/-- The steps of a flag and the text attached to it, if the given text is the
next word and no flag; and whether that word is used up. -/
def resolve (spelling : Spelling) (flag : Flag) (attached? : Option Attached)
    (next? : Option Text) : List Step × Bool :=
  match ofAttached? spelling flag attached? with
  | none => ([.wrong], false)
  | some ⟨steps, none⟩ => (steps, false)
  | some ⟨steps, some valued⟩ =>
    match next? with
    | some value => (steps ++ [.assign valued value], true)
    | none => ([.wrong], false)

end Cluster

/-- The steps of the words of a command line. -/
def steps : List Word → List Step
  | [] => []
  | .flag spelling flag attached? :: .value value :: rest =>
    match Cluster.resolve spelling flag attached? (some value) with
    | (found, true) => found ++ steps rest
    | (found, false) => found ++ .strange :: steps rest
  | .flag spelling flag attached? :: rest =>
    (Cluster.resolve spelling flag attached? none).1 ++ steps rest
  | _ :: rest => .strange :: steps rest

/-- Follows steps.  What is not understood makes a misuse, unless information is
asked for. -/
def follow (arguments : Arguments) (isUnderstood : Bool) : List Step → Reading
  | [] => if isUnderstood then .given arguments else .misuse
  | .alone flag :: rest =>
    if flag.asksForInformation then .information flag
    else follow (arguments.switchOn flag) isUnderstood rest
  | .assign flag value :: rest =>
    match arguments.assign? flag value with
    | some assigned => follow assigned isUnderstood rest
    | none => .misuse
  | .strange :: rest => follow arguments false rest
  | .wrong :: _ => .misuse

namespace Reading

/-- What the words of a command line mean.  A word that could mean several flags
is a misuse wherever it stands. -/
def ofTexts (texts : List Text) : Reading :=
  match Word.ofTexts? texts with
  | none => .misuse
  | some words => follow {} true (steps words)

end Reading

namespace Arguments

/-- A value that is given and not empty, as an entry. -/
def filled? (key : Text) (given? : Option Text) : Option (Text × Value) :=
  match given? with
  | some [] | none => none
  | some value => some (key, .text value)

/-- The section with some entries; without entries there is none. -/
def part? (key : Text) (entries : List (Text × Value)) : Option (Text × Value) :=
  if entries.isEmpty then none else some (key, .ofNamed entries)

/-- The configuration that the command line gives. -/
def overrides (arguments : Arguments) : Value :=
  let paths :=
    [filled? Settings.rootKey arguments.root?, filled? Settings.apiKey arguments.api?,
      filled? Settings.implementationKey arguments.implementation?].filterMap id
  let generation :=
    (filled? Settings.formatterKey arguments.formatter?).toList ++
      if arguments.isDryRun then [(Settings.dryRunKey, .bool true)] else []
  .ofNamed ([part? Settings.pathsKey paths, part? Settings.generationKey generation].filterMap id)

end Arguments

end CommandLine

end Scaffold
