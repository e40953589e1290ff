import Scaffold.Terminal.Wrapping
import Scaffold.Text.Lines

/-!
# Tables

A table has a title, a header and rows, all of one number of cells.  A column is
as wide as its widest cell.  A table that is too wide for the terminal has its
widest columns made narrower.
-/

namespace Scaffold

namespace Terminal

/-- The number of columns of the terminal. -/
def width : Nat := 400

/-- A table. -/
structure Table where
  title : Text
  header : List Text
  rows : List (List Text)
  deriving Repr, DecidableEq

namespace Table

/-- The columns that the blanks beside a cell take. -/
def padding : Nat := 2

/-- The columns of the widest line of a cell. -/
def cellWidth (cell : Text) : Nat :=
  ((Text.lines cell).map Text.width).foldl max 0

/-- The widths of the columns as far as rows are given, padding included. -/
def widest : List (List Text) → List Nat
  | [] => []
  | [row] => row.map fun cell => cellWidth cell + padding
  | row :: rest => List.zipWith (fun cell width => max (cellWidth cell + padding) width) row
      (widest rest)

/-- A quotient rounded to the nearest number, a half to the even one. -/
def roundDiv (number divisor : Nat) : Nat :=
  let quotient := number / divisor
  let twice := 2 * (number % divisor)
  if twice < divisor then quotient
  else if divisor < twice then quotient + 1
  else if quotient % 2 = 0 then quotient
  else quotient + 1

/-- The width of several columns together. -/
def totalWidth (widths : List Nat) : Nat :=
  widths.foldr (· + ·) 0

/-- Takes an excess from the columns of a width, as evenly as possible but at
most a limit from each; the count is that of the columns to take from. -/
def takeFrom (wide limit : Nat) : Nat → Nat → List Nat → List Nat
  | _, _, [] => []
  | count, excess, width :: rest =>
    if width = wide then
      let taken := min limit (roundDiv excess count)
      (width - taken) :: takeFrom wide limit (count - 1) (excess - taken) rest
    else width :: takeFrom wide limit count excess rest

/-- Makes the widest columns narrower until a limit is kept; the fuel bounds the
number of steps. -/
def narrow : Nat → Nat → List Nat → List Nat
  | 0, _, widths => widths
  | fuel + 1, limit, widths =>
    let excess := totalWidth widths - limit
    let wide := widths.foldl max 0
    let next := (widths.filter (· ≠ wide)).foldl max 0
    if excess = 0 ∨ wide = 0 then widths
    else narrow fuel limit
      (takeFrom wide (min excess (wide - next)) (widths.filter (· = wide)).length excess widths)

/-- The widths of the columns, padding included. -/
def columnWidths (table : Table) : List Nat :=
  let widths := widest (table.header :: table.rows)
  narrow (totalWidth widths + 1) (width - (widths.length + 1)) widths

def rule (widths : List Nat) (left line crossing right : Char) : Text :=
  [left] ++ Text.join [crossing] (widths.map fun width => Text.times width line) ++ [right]

/-- One line of a row, with blanks where a cell has no such line. -/
def rowLine (widths : List Nat) (bar : Char) (cells : List (List Text)) (index : Nat) : Text :=
  let parts := List.zipWith
    (fun width cell => [' '] ++ pad (width - padding) (cell.getD index []) ++ [' ']) widths cells
  [bar] ++ Text.join [bar] parts ++ [bar]

def rowLines (widths : List Nat) (bar : Char) (row : List Text) : List Text :=
  let cells := List.zipWith (fun width cell => wrap (width - padding) false cell) widths row
  let height := (cells.map List.length).foldl max 1
  (List.range height).map (rowLine widths bar cells)

/-- A line in the middle of a number of columns, an odd blank being on its
right. -/
def centred (width : Nat) (line : Text) : Text :=
  let line := Text.trimEnd line
  pad width (Text.times ((width - Text.width line) / 2) ' ' ++ line)

def lines (table : Table) : List Text :=
  let widths := table.columnWidths
  let total := totalWidth widths + widths.length + 1
  (wrap total true table.title).map (centred total) ++
    [rule widths '┏' '━' '┳' '┓'] ++ rowLines widths '┃' table.header ++
    [rule widths '┡' '━' '╇' '┩'] ++ table.rows.flatMap (rowLines widths '│') ++
    [rule widths '└' '─' '┴' '┘']

end Table

end Terminal

end Scaffold
