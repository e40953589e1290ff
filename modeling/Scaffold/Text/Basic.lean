/-!
# Text as a list of characters

All text of the library is a list of code points, so that every operation on
it is a structural recursion and every position is a number of characters.
String literals are read as text wherever text is expected.
-/

namespace Scaffold

/-- A text: its code points in order. -/
abbrev Text := List Char

instance : Coe String Text := ⟨String.toList⟩

/-- Texts are equal exactly if they are compared as equal. -/
instance : LawfulBEq Text := inferInstanceAs (LawfulBEq (List Char))

namespace Text

/-- The text begins with the given one. -/
def startsWith (beginning text : Text) : Bool :=
  beginning.isPrefixOf text

/-- The text ends with the given one. -/
def endsWith (ending text : Text) : Bool :=
  ending.isSuffixOf text

/-- The text without its last characters. -/
def dropLast (count : Nat) (text : Text) : Text :=
  text.take (text.length - count)

/-- The pieces between the occurrences of a character; there is always one
piece more than there are occurrences. -/
def splitOn (separator : Char) : Text → List Text
  | [] => [[]]
  | character :: rest =>
    if character = separator then
      [] :: splitOn separator rest
    else
      match splitOn separator rest with
      | [] => [[character]]
      | piece :: pieces => (character :: piece) :: pieces

/-- The pieces with a separator between each two neighbours. -/
def join (separator : Text) : List Text → Text
  | [] => []
  | [piece] => piece
  | piece :: next :: pieces => piece ++ separator ++ join separator (next :: pieces)

/-- The texts one after the other. -/
def concat (pieces : List Text) : Text :=
  pieces.flatten

/-- The lines, each ended by a line feed. -/
def ofLines (lines : List Text) : Text :=
  lines.flatMap (· ++ ['\n'])

/-- What stands before the first occurrence of a mark; the whole text if there
is none. -/
def before (mark : Text) : Text → Text
  | [] => []
  | character :: rest =>
    if startsWith mark (character :: rest) then [] else character :: before mark rest

/-- The text occurs somewhere inside the other one. -/
def occursIn (wanted : Text) : Text → Bool
  | [] => wanted.isEmpty
  | character :: rest => startsWith wanted (character :: rest) || occursIn wanted rest

/-- Every occurrence of a character replaced by a text. -/
def replaceChar (wanted : Char) (replacement : Text) (text : Text) : Text :=
  text.flatMap fun character => if character = wanted then replacement else [character]

/-- Order by code points, a beginning before its continuations. -/
def order : Text → Text → Ordering
  | [], [] => .eq
  | [], _ :: _ => .lt
  | _ :: _, [] => .gt
  | left :: lefts, right :: rights =>
    match compare left.toNat right.toNat with
    | .eq => order lefts rights
    | decided => decided

/-- The decimal digits of a number. -/
def ofNat (number : Nat) : Text :=
  Nat.toDigits 10 number

/-- The hexadecimal digits of a number, padded with zeros to a width. -/
def hex (width number : Nat) : Text :=
  let digits := Nat.toDigits 16 number
  List.replicate (width - digits.length) '0' ++ digits

def times (count : Nat) (character : Char) : Text :=
  List.replicate count character

end Text

end Scaffold
