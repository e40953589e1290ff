import Scaffold.Notice

/-!
# Attempts

An attempt reports what happens on the way to its result.  What has happened
stays reported when the attempt fails.
-/

namespace Scaffold

/-- Something that is reported: a notice, or a command that was run with its
arguments. -/
inductive Happening where
  | notice (notice : Notice)
  | call (arguments : List Text)
  deriving Repr, DecidableEq

namespace Happening

def notice? : Happening → Option Notice
  | .notice reported => some reported
  | .call _ => none

/-- The arguments of the command, if it is one. -/
def call? : Happening → Option (List Text)
  | .notice _ => none
  | .call arguments => some arguments

end Happening

/-- A result or a fault, with what happened before. -/
structure Attempt (Fault Result : Type) where
  happenings : List Happening
  result : Except Fault Result

namespace Attempt

variable {Fault Result Next : Type}

/-- A result without anything happening. -/
def succeed (result : Result) : Attempt Fault Result :=
  ⟨[], .ok result⟩

/-- A fault without anything happening. -/
def fail (fault : Fault) : Attempt Fault Result :=
  ⟨[], .error fault⟩

/-- A result or fault that is known already. -/
def of (result : Except Fault Result) : Attempt Fault Result :=
  ⟨[], result⟩

/-- Goes on with the result, if there is one. -/
def andThen (attempt : Attempt Fault Result) (next : Result → Attempt Fault Next) :
    Attempt Fault Next :=
  match attempt.result with
  | .error fault => ⟨attempt.happenings, .error fault⟩
  | .ok result =>
    let following := next result
    ⟨attempt.happenings ++ following.happenings, following.result⟩

instance : Monad (Attempt Fault) where
  pure := succeed
  bind := andThen

def report (notices : List Notice) : Attempt Fault Unit :=
  ⟨notices.map .notice, .ok ()⟩

end Attempt

end Scaffold
