import Scaffold.Text.Basic

/-!
# Reports

A report tells what became of each generated file.
-/

namespace Scaffold

/-- What became of a file. -/
inductive Status where
  | created
  | updated
  | unchanged
  | other (label : Text)
  deriving Repr, DecidableEq

namespace Status

def name : Status → Text
  | created => "created"
  | updated => "updated"
  | unchanged => "unchanged"
  | other label => label

def ofName (name : Text) : Status :=
  if name = created.name then created
  else if name = updated.name then updated
  else if name = unchanged.name then unchanged
  else other name

end Status

/-- A generated file with what became of it and what is new in it. -/
structure Outcome where
  path : Text
  status : Status
  newTypes : Nat := 0
  newMethods : Nat := 0
  deriving Repr, DecidableEq

/-- What a run has done. -/
structure Report where
  files : List Outcome := []
  registry? : Option Outcome := none
  packages : Nat := 0
  contracts : Nat := 0
  isDryRun : Bool := false
  deriving Repr, DecidableEq

namespace Report

/-- The number of new types in all files. -/
def newTypes (report : Report) : Nat :=
  report.files.foldr (fun outcome total => outcome.newTypes + total) 0

/-- The number of new methods in all files. -/
def newMethods (report : Report) : Nat :=
  report.files.foldr (fun outcome total => outcome.newMethods + total) 0

/-- The files that changed, the registry last. -/
def changed (report : Report) : List Outcome :=
  (report.files ++ report.registry?.toList).filter fun outcome => outcome.status != .unchanged

end Report

end Scaffold
