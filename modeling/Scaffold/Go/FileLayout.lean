import Scaffold.Go.ImportBlock
import Scaffold.Go.SourceFile
import Scaffold.Text.Blank

/-!
# The layout of a file around its imports

A file is cut into the head up to and including the line of its package clause,
the import section, and the tail after the last import.  Comments inside the
section belong to the last import that ends on their line before them, or stand
alone.
-/

namespace Scaffold

namespace Go

/-- A file cut around its import section. -/
structure FileLayout where
  head : Text
  tail : Text
  lines : List ImportLine := []
  comments : List Text := []
  hasSection : Bool := false
  deriving Repr, DecidableEq

/-- Why a file cannot be cut. -/
inductive CutFault where
  | unreadable (fault : SourceFault)
  | noPackageClause
  /-- Something else stands between the imports. -/
  | interrupted (label : Text) (line : Nat)
  deriving Repr, DecidableEq

namespace CutFault

/-- The fault behind the path of the file. -/
def message (path : Text) : CutFault → Text
  | unreadable fault => fault.message path
  | noPackageClause => SourceFault.shownPath path ++ ": no package clause"
  | interrupted label line =>
    SourceFault.shownPath path ++ ":" ++ Text.ofNat line ++ ": unexpected " ++ label ++
      " between imports"

end CutFault

namespace SourceFile

/-- The position after the line in which a position stands. -/
def lineStop (file : SourceFile) (position : Nat) : Nat :=
  let rest := (file.source.drop position).dropWhile (· ≠ '\n')
  file.source.length - (rest.length - 1)

/-- The comments in a range of positions at file level together with those
inside the given declarations, in source order. -/
def sectionComments (file : SourceFile) (declarations : List Tree) (start stop : Nat) :
    List (Nat × Text) :=
  let outer := (file.items.flatMap Tree.leadingComments).filter fun comment =>
    start ≤ comment.1 && comment.1 < stop
  Sorting.sort (fun left right => compare left.1 right.1)
    (outer ++ declarations.flatMap Tree.innerComments)

/-- The place of an import in the source: the line in which it ends and the
position after it. -/
structure SpecEnd where
  line : Nat
  position : Nat

/-- The index of the last import that ends on a line before a position. -/
def owner? (ends : List SpecEnd) (line position : Nat) : Option Nat :=
  ((ends.zipIdx.filter fun entry =>
    entry.1.line = line && entry.1.position ≤ position).map Prod.snd).getLast?

/-- Adds a comment behind an import. -/
def attach (text : Text) (line : ImportLine) : ImportLine :=
  { line with comment := Text.trim (line.comment ++ [' '] ++ text) }

/-- Gives each comment to its import; the others are collected. -/
def attachComments (file : SourceFile) (ends : List SpecEnd) :
    List (Nat × Text) → List ImportLine → List ImportLine × List Text
  | [], lines => (lines, [])
  | (position, text) :: rest, lines =>
    match owner? ends (file.lineOf position) position with
    | some index => file.attachComments ends rest (lines.modify index (attach text))
    | none =>
      let (attached, alone) := file.attachComments ends rest lines
      (attached, text :: alone)

/-- Cuts a file around its import section. -/
def cut (file : SourceFile) : Except CutFault FileLayout :=
  match file.packageClause? with
  | none => .error .noPackageClause
  | some clause =>
    let headStop := file.lineStop clause.stop
    let head := file.source.take headStop
    let declarations := file.topLevel .importDeclaration
    match declarations.getLast? with
    | none => .ok { head := head, tail := file.source.drop headStop }
    | some last =>
      let interrupts (item : Tree) : Bool :=
        headStop ≤ item.start && item.start < last.stop && !item.isA .importDeclaration
      match file.items.find? interrupts with
      | some item => .error (.interrupted item.label (file.lineOf item.start))
      | none =>
        let specs := declarations.flatMap importSpecs
        let ends := specs.map fun spec => SpecEnd.mk (file.lineOf spec.stop) spec.stop
        let comments := file.sectionComments declarations headStop last.stop
        let (lines, alone) :=
          file.attachComments ends comments (specs.map fun spec => ⟨importOf spec, []⟩)
        .ok
          { head := head
            tail := file.source.drop last.stop
            lines := lines
            comments := alone
            hasSection := true }

end SourceFile

namespace FileLayout

def ofSource (source : Bytes) : Except CutFault FileLayout :=
  match SourceFile.ofBytes source with
  | .error fault => .error (.unreadable fault)
  | .ok file => file.cut

def imports (layout : FileLayout) : List Import :=
  layout.lines.map ImportLine.spec

end FileLayout

end Go

end Scaffold
