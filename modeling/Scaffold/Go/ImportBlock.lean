import Scaffold.Import
import Scaffold.Sorting

/-!
# Import blocks

The imports of a file as one declaration: comments of their own first, then the
standard library, third-party packages and the packages of the local module,
each group sorted by path and name and each import once.
-/

namespace Scaffold

/-- An import with the comment that follows it on its line. -/
structure ImportLine where
  spec : Import
  comment : Text := []
  deriving Repr, DecidableEq

namespace ImportLine

def order (left right : ImportLine) : Ordering :=
  (Text.order left.spec.path right.spec.path).then (Text.order left.spec.name right.spec.name)

def render (line : ImportLine) : Text :=
  ['\t'] ++ line.spec.render ++
    (if line.comment.isEmpty then [] else [' '] ++ line.comment)

end ImportLine

namespace ImportBlock

/-- Adds a line to lines with different imports.  An import that is there
already only gains the comment it lacks. -/
def add (line : ImportLine) : List ImportLine → List ImportLine
  | [] => [line]
  | present :: rest =>
    if present.spec = line.spec then
      (if present.comment.isEmpty && !line.comment.isEmpty then line else present) :: rest
    else present :: add line rest

/-- The lines with each import once. -/
def unique (lines : List ImportLine) : List ImportLine :=
  lines.foldl (fun kept line => add line kept) []

/-- The groups in their order; empty ones are left out. -/
def groups (module : Text) (lines : List ImportLine) : List (List ImportLine) :=
  let isLocal (line : ImportLine) := Import.isLocal line.spec.path module
  let isStandard (line : ImportLine) := Import.isStandard line.spec.path
  let sorted (keep : ImportLine → Bool) := Sorting.sort ImportLine.order (lines.filter keep)
  [sorted fun line => !isLocal line && isStandard line,
    sorted fun line => !isLocal line && !isStandard line,
    sorted isLocal].filter fun group => !group.isEmpty

/-- The lines of the groups with a blank line between each two. -/
def groupLines : List (List ImportLine) → List Text
  | [] => []
  | [group] => group.map ImportLine.render
  | group :: next :: rest => group.map ImportLine.render ++ [] :: groupLines (next :: rest)

/-- The block for some lines and comments, seen from a module. -/
def render (module : Text) (comments : List Text) (lines : List ImportLine) : Text :=
  "import (\n" ++
    Text.join ['\n']
      (comments.map (['\t'] ++ ·) ++ groupLines (groups module (unique lines))) ++
    "\n)"

end ImportBlock

end Scaffold
