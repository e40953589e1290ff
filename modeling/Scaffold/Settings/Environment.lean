import Scaffold.Settings.Validation

/-!
# Settings from the environment

Three variables of the environment set the directories.  An empty variable counts
as one that is not set.
-/

namespace Scaffold

/-- The variables of an environment with their values. -/
abbrev Environment := List (Text × Text)

namespace Environment

/-- The value of a variable that is set and not empty. -/
def value? (environment : Environment) (name : Text) : Option Text :=
  match environment.find? fun entry => entry.1 == name with
  | some (_, []) | none => none
  | some (_, value) => some value

/-- The variables that set directories, each with the key of its directory. -/
def directoryVariables : List (Text × Text) :=
  [("IMPLGEN_ROOT", Settings.rootKey), ("IMPLGEN_API_DIR", Settings.apiKey),
    ("IMPLGEN_IMPL_DIR", Settings.implementationKey)]

/-- The configuration that an environment gives; none if it sets no directory. -/
def config? (environment : Environment) : Option Value :=
  let given := directoryVariables.filterMap fun (name, key) =>
    (environment.value? name).map fun value => (key, Value.text value)
  if given.isEmpty then none else some (.ofNamed [(Settings.pathsKey, .ofNamed given)])

end Environment

end Scaffold
