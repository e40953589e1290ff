import Scaffold.Text.Basic

/-!
# Lines

A line ends at any of the line boundaries of Unicode; a carriage return
directly before a line feed belongs to the same boundary.  Universal newlines,
on the other hand, only know the carriage return and the line feed.
-/

namespace Scaffold

namespace Text

/-- The characters that end a line. -/
def isLineEnd (character : Char) : Bool :=
  let code := character.toNat
  (10 ≤ code && code ≤ 13) || (28 ≤ code && code ≤ 30) || code == 0x85 || code == 0x2028 ||
    code == 0x2029

/-- Every carriage return, with the line feed after it if there is one, read as
one line feed. -/
def universalNewlines : Text → Text
  | [] => []
  | '\r' :: '\n' :: rest => '\n' :: universalNewlines rest
  | '\r' :: rest => '\n' :: universalNewlines rest
  | character :: rest => character :: universalNewlines rest

/-- The lines of a text without their ends; a final line end opens no line. -/
def lines (text : Text) : List Text :=
  collect [] text
where
  /-- Collects the current line, last character first. -/
  collect (current : Text) : Text → List Text
    | [] => if current.isEmpty then [] else [current.reverse]
    | '\r' :: '\n' :: rest => current.reverse :: collect [] rest
    | character :: rest =>
      if isLineEnd character then current.reverse :: collect [] rest
      else collect (character :: current) rest

end Text

end Scaffold
