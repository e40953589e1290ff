import Scaffold.Go.Grammar
import Scaffold.Go.Lexer
import Scaffold.Import
import Scaffold.Text.Utf8

/-!
# Source files

A source file is the sequence of what stands at file level: declarations,
statements and the semicolons between them.  Reading a file either succeeds as a
whole or fails as a whole.
-/

namespace Scaffold

namespace Go

/-- Why a file cannot be read. -/
inductive SourceFault where
  /-- The bytes are not UTF-8 from a byte on, which stands in a line. -/
  | invalidUtf8 (byte line : Nat)
  | syntaxError
  deriving Repr, DecidableEq

namespace SourceFault

/-- A path as it is shown; a source without a path has a placeholder. -/
def shownPath (path : Text) : Text :=
  if path.isEmpty then "<source>" else path

/-- The fault behind the path of the file and, where it is known, the line. -/
def message (path : Text) : SourceFault → Text
  | invalidUtf8 byte line =>
    shownPath path ++ ":" ++ Text.ofNat line ++ ": invalid UTF-8 at byte " ++ Text.ofNat byte
  | syntaxError => shownPath path ++ ": syntax error"

end SourceFault

/-- A file that could be read, with the trees at file level; the last one is the
end of the file. -/
structure SourceFile where
  source : Text
  items : List Tree
  deriving Repr

namespace SourceFile

/-- A bound on how deep the reading of so many tokens can go. -/
def depthBound (tokens : Nat) : Nat :=
  256 * (tokens + 1)

def ofText? (source : Text) : Option SourceFile :=
  match tokens? source with
  | none => none
  | some tokens =>
    match Rule.read Grammar.table (depthBound tokens.length) .lines Grammar.file tokens with
    | some (items, []) => some ⟨source, items⟩
    | _ => none

def ofBytes (bytes : Bytes) : Except SourceFault SourceFile :=
  match Utf8.decode bytes with
  | .error fault => .error (.invalidUtf8 fault.start ((bytes.take fault.start).count 10 + 1))
  | .ok source =>
    match ofText? source with
    | none => .error .syntaxError
    | some file => .ok file

/-- The number of bytes before a position. -/
def byteOffset (file : SourceFile) (position : Nat) : Nat :=
  Utf8.size (file.source.take position)

/-- The number of the line in which a position stands, from one. -/
def lineOf (file : SourceFile) (position : Nat) : Nat :=
  (file.source.take position).count '\n' + 1

/-- All constructs of a kind in the file, in source order. -/
def inside (kind : Kind) (file : SourceFile) : List Tree :=
  file.items.flatMap (Tree.inside kind)

/-- The constructs of a kind at file level. -/
def topLevel (kind : Kind) (file : SourceFile) : List Tree :=
  file.items.filter (Tree.isA kind)

def packageClause? (file : SourceFile) : Option Tree :=
  (file.topLevel .packageClause).head?

def clauseName (clause : Tree) : Text :=
  ((clause.parts .name).map Tree.text).headD []

def packageName? (file : SourceFile) : Option Text :=
  file.packageClause?.map clauseName

/-- The imports that a declaration makes. -/
def importSpecs (declaration : Tree) : List Tree :=
  declaration.inside .importSpec

/-- What an import specification imports: the path between its quotes. -/
def importOf (spec : Tree) : Import where
  path := (((spec.parts .importPath).map Tree.text).headD []).drop 1 |>.dropLast
  name := ((spec.parts .importName).map Tree.text).headD []

/-- All imports of the file in source order. -/
def imports (file : SourceFile) : List Import :=
  (file.topLevel .importDeclaration).flatMap fun declaration =>
    (importSpecs declaration).map importOf

end SourceFile

end Go

end Scaffold
