import Scaffold.Text.Blank
import Scaffold.Text.Width

/-!
# Wrapping

Text is broken into lines that fit a number of columns.  Lines break before
words.  A word that is too wide for any line is either folded or cut, and a cut
line ends in an ellipsis.
-/

namespace Scaffold

namespace Terminal

/-- The distance between two tabulator stops. -/
def tabDistance : Nat := 8

/-- The text without characters that move the cursor, the tabulator and the line
feed excepted. -/
def printable (text : Text) : Text :=
  text.filter fun character =>
    let code := character.toNat
    !(code == 7 || code == 8 || (11 ≤ code && code ≤ 13))

/-- A line whose tabulators are blanks up to the next stop, seen from a column. -/
def expandTabs (column : Nat) : Text → Text
  | [] => []
  | character :: rest =>
    if character = '\t' then
      let count := tabDistance - column % tabDistance
      Text.times count ' ' ++ expandTabs (column + count) rest
    else character :: expandTabs (column + Text.columns character) rest

/-- What a line consists of: words, each with the blanks behind it.  Blanks at
the beginning belong to the first word; blanks alone are no word. -/
def words (line : Text) : List Text :=
  let (beginning, rest) := line.span Text.isBlank
  match collect [] [] rest with
  | [] => []
  | first :: others => (beginning ++ first) :: others
where
  /-- Collects a word and the blanks behind it, last character first. -/
  collect (word blanks : Text) : Text → List Text
    | [] => if word.isEmpty then [] else [(blanks ++ word).reverse]
    | character :: rest =>
      if Text.isBlank character then collect word (character :: blanks) rest
      else if blanks.isEmpty then collect (character :: word) [] rest
      else (blanks ++ word).reverse :: collect [character] [] rest

/-- The pieces of a word that fit a number of columns. -/
def fold (width : Nat) (word : Text) : List Text :=
  collect [] 0 word
where
  /-- Collects a piece, last character first. -/
  collect (piece : Text) (used : Nat) : Text → List Text
    | [] => [piece.reverse]
    | character :: rest =>
      let columns := Text.columns character
      if width < used + columns then piece.reverse :: collect [character] columns rest
      else collect (character :: piece) (used + columns) rest

/-- A text that is being broken into lines: the lines that are complete, last
line first, the current line, and the columns that count as used on it. -/
structure Wrapped where
  complete : List Text := []
  current : Text := []
  used : Nat := 0

namespace Wrapped

/-- The number of lines begun so far is not one, or the first line has text. -/
def hasText (wrapped : Wrapped) : Bool :=
  !wrapped.complete.isEmpty || !wrapped.current.isEmpty

/-- Adds text to the current line. -/
def extend (wrapped : Wrapped) (text : Text) (columns : Nat) : Wrapped :=
  { wrapped with current := wrapped.current ++ text, used := wrapped.used + columns }

/-- Begins a new line with a text. -/
def begin (wrapped : Wrapped) (text : Text) (columns : Nat) : Wrapped :=
  ⟨wrapped.current :: wrapped.complete, text, columns⟩

/-- Places one piece of a folded word. -/
def place (wrapped : Wrapped) (piece : Text) : Wrapped :=
  let columns := Text.width piece
  if wrapped.hasText then wrapped.begin piece columns else ⟨[], piece, columns⟩

def add (width : Nat) (folds : Bool) (wrapped : Wrapped) (word : Text) : Wrapped :=
  let columns := Text.width (Text.trimEnd word)
  if columns ≤ width - wrapped.used then wrapped.extend word (Text.width word)
  else if width < columns then
    if folds then (fold width word).foldl place wrapped
    else if wrapped.hasText then wrapped.begin word (Text.width word)
    else wrapped.extend word 0
  else if wrapped.used ≠ 0 && wrapped.hasText then wrapped.begin word (Text.width word)
  else wrapped.extend word 0

def lines (wrapped : Wrapped) : List Text :=
  (wrapped.current :: wrapped.complete).reverse

end Wrapped

/-- A line without the blanks at its end, as far as it is longer than the given
number of characters. -/
def dropExcess (width : Nat) (line : Text) : Text :=
  let blanks := (line.reverse.takeWhile Text.isBlank).length
  Text.dropLast (min blanks (line.length - width)) line

/-- What fits a number of columns from the beginning of a text. -/
def fitting (width : Nat) : Text → Text
  | [] => []
  | character :: rest =>
    let columns := Text.columns character
    if columns ≤ width then character :: fitting (width - columns) rest else []

/-- The text with blanks up to a number of columns. -/
def pad (width : Nat) (text : Text) : Text :=
  text ++ Text.times (width - Text.width text) ' '

/-- The text cut or padded to a number of columns. -/
def resize (width : Nat) (text : Text) : Text :=
  pad width (fitting width text)

/-- A line cut to a number of columns, with an ellipsis unless words are folded. -/
def cut (width : Nat) (folds : Bool) (line : Text) : Text :=
  if Text.width line ≤ width then line
  else if folds then resize width line
  else resize (width - 1) line ++ ['…']

/-- The lines into which one line is broken. -/
def wrapLine (width : Nat) (folds : Bool) (line : Text) : List Text :=
  let line := if line.contains '\t' then expandTabs 0 line else line
  let pieces :=
    match words line with
    | [] => [line]
    | found => (found.foldl (Wrapped.add width folds) {}).lines
  pieces.map fun piece => cut width folds (dropExcess width piece)

/-- The lines into which a text is broken. -/
def wrap (width : Nat) (folds : Bool) (text : Text) : List Text :=
  (Text.splitOn '\n' text).flatMap (wrapLine width folds)

end Terminal

end Scaffold
