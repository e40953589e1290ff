import Scaffold.Text.Basic

/-!
# Notices

What the library reports beside its results, in the order in which it happens.
-/

namespace Scaffold

/-- How serious a notice is. -/
inductive Severity where
  | info
  | warning
  | error
  deriving Repr, DecidableEq

/-- A message with its severity. -/
structure Notice where
  severity : Severity
  message : Text
  deriving Repr, DecidableEq

namespace Severity

def name : Severity → Text
  | info => "INFO"
  | warning => "WARNING"
  | error => "ERROR"

end Severity

end Scaffold
