import Scaffold.Settings.Value
import Scaffold.Text.Word

/-!
# Reading JSON

Values of JSON with the usual numbers that are not finite.  A key that comes
again replaces the value it had.  A reader answers with what follows the value.
-/

namespace Scaffold

namespace Json

/-- Answers with a value and what follows it. -/
abbrev Parsed (Result : Type) := Option (Result × Text)

def isSpace (character : Char) : Bool :=
  character == ' ' || character == '\t' || character == '\n' || character == '\r'

/-- The text without the white space it begins with. -/
def skip (text : Text) : Text :=
  text.dropWhile isSpace

/-- The value of a hexadecimal digit. -/
def hexDigit? (character : Char) : Option Nat :=
  let code := character.toNat
  if 48 ≤ code ∧ code ≤ 57 then some (code - 48)
  else if 97 ≤ code ∧ code ≤ 102 then some (code - 87)
  else if 65 ≤ code ∧ code ≤ 70 then some (code - 55)
  else none

/-- A number of hexadecimal digits. -/
def hexDigits : Nat → Nat → Text → Parsed Nat
  | 0, value, rest => some (value, rest)
  | _ + 1, _, [] => none
  | count + 1, value, character :: rest =>
    match hexDigit? character with
    | none => none
    | some digit => hexDigits count (value * 16 + digit) rest

/-- The characters after a backslash that stand for one character. -/
def simpleEscapes : List (Char × Char) :=
  [('"', '"'), ('\\', '\\'), ('/', '/'), ('b', Char.ofNat 8), ('f', Char.ofNat 12),
    ('n', '\n'), ('r', '\r'), ('t', '\t')]

/-- The character given by one or, outside the basic plane, two code units, the
digits of the first of which follow. -/
def unicodeEscape (text : Text) : Parsed Char :=
  match hexDigits 4 0 text with
  | none => none
  | some (high, rest) =>
    if 0xD800 ≤ high ∧ high ≤ 0xDBFF then
      match rest with
      | '\\' :: 'u' :: digits =>
        match hexDigits 4 0 digits with
        | none => none
        | some (low, after) =>
          if 0xDC00 ≤ low ∧ low ≤ 0xDFFF then
            some (Char.ofNat (0x10000 + (high - 0xD800) * 1024 + (low - 0xDC00)), after)
          else some (Char.ofNat 0xFFFD, rest)
      | _ => some (Char.ofNat 0xFFFD, rest)
    else if 0xDC00 ≤ high ∧ high ≤ 0xDFFF then some (Char.ofNat 0xFFFD, rest)
    else some (Char.ofNat high, rest)

/-- The character of an escape after its backslash. -/
def escape : Text → Parsed Char
  | [] => none
  | 'u' :: rest => unicodeEscape rest
  | character :: rest =>
    (simpleEscapes.find? fun entry => entry.1 == character).map fun entry => (entry.2, rest)

/-- The rest of a string after its opening quote; the fuel bounds the number of
characters. -/
def stringRest : Nat → Text → Parsed Text
  | 0, _ => none
  | _ + 1, [] => none
  | fuel + 1, character :: rest =>
    if character = '"' then some ([], rest)
    else if character = '\\' then
      match escape rest with
      | none => none
      | some (escaped, after) =>
        (stringRest fuel after).map fun found => (escaped :: found.1, found.2)
    else if character.toNat < 32 then none
    else (stringRest fuel rest).map fun found => (character :: found.1, found.2)

/-- The number that some decimal digits make. -/
def digitsValue (digits : Text) : Nat :=
  digits.foldl (fun value digit => value * 10 + (digit.toNat - 48)) 0

/-- The digits that a text begins with. -/
def leadingDigits (text : Text) : Text :=
  text.takeWhile Text.isAsciiDigit

/-- The digits after a point, with the point. -/
def fractionPart : Text → Text
  | '.' :: rest =>
    let digits := leadingDigits rest
    if digits.isEmpty then [] else '.' :: digits
  | _ => []

/-- The letter, the sign and the digits of an exponent. -/
def exponentPart : Text → Text
  | letter :: rest =>
    if letter = 'e' ∨ letter = 'E' then
      let sign : Text :=
        match rest with
        | '+' :: _ => ['+']
        | '-' :: _ => ['-']
        | _ => []
      let digits := leadingDigits (rest.drop sign.length)
      if digits.isEmpty then [] else letter :: (sign ++ digits)
    else []
  | [] => []

def exponentValue : Text → Int
  | _ :: '-' :: digits => -(digitsValue digits : Int)
  | _ :: '+' :: digits => digitsValue digits
  | _ :: digits => digitsValue digits
  | [] => 0

/-- A number: an integer unless it has a fraction or an exponent. -/
def number (text : Text) : Parsed Value :=
  let sign : Text :=
    match text with
    | '-' :: _ => ['-']
    | _ => []
  let unsigned := text.drop sign.length
  let whole : Text :=
    match unsigned with
    | '0' :: _ => ['0']
    | _ => leadingDigits unsigned
  if whole.isEmpty then none
  else
    let afterWhole := unsigned.drop whole.length
    let fraction := fractionPart afterWhole
    let power := exponentPart (afterWhole.drop fraction.length)
    let rest := (afterWhole.drop fraction.length).drop power.length
    if fraction.isEmpty && power.isEmpty then
      let magnitude : Int := digitsValue whole
      some (.integer (if sign.isEmpty then magnitude else -magnitude), rest)
    else
      let places := fraction.drop 1
      some
        (.decimal (!sign.isEmpty) (digitsValue (whole ++ places))
          (exponentValue power - places.length), rest)

/-- The words that stand for values. -/
def constants : List (Text × Value) :=
  [("null", .null), ("true", .bool true), ("false", .bool false), ("NaN", .scalar "nan"),
    ("Infinity", .scalar "inf"), ("-Infinity", .scalar "-inf")]

/-- A word that stands for a value. -/
def constant (text : Text) : Parsed Value :=
  (constants.find? fun entry => Text.startsWith entry.1 text).map fun entry =>
    (entry.2, text.drop entry.1.length)

mutual

/-- A value; the fuel bounds the number of characters. -/
def value : Nat → Text → Parsed Value
  | 0, _ => none
  | fuel + 1, text =>
    match text with
    | [] => none
    | '"' :: rest => (stringRest rest.length.succ rest).map fun found => (.text found.1, found.2)
    | '[' :: rest =>
      match skip rest with
      | ']' :: after => some (.list [], after)
      | items => (listRest fuel items).map fun found => (.list found.1, found.2)
    | '\x7b' :: rest =>
      match skip rest with
      | '\x7d' :: after => some (.mapping [], after)
      | entries => (mappingRest fuel entries).map fun found => (.ofEntries found.1, found.2)
    | _ =>
      match constant text with
      | some found => some found
      | none => number text

/-- The items of a list up to its closing bracket. -/
def listRest : Nat → Text → Parsed (List Value)
  | 0, _ => none
  | fuel + 1, text =>
    match value fuel text with
    | none => none
    | some (item, after) =>
      match skip after with
      | ']' :: rest => some ([item], rest)
      | ',' :: rest => (listRest fuel (skip rest)).map fun found => (item :: found.1, found.2)
      | _ => none

/-- The entries of a mapping up to its closing brace. -/
def mappingRest : Nat → Text → Parsed (List (Key × Value))
  | 0, _ => none
  | fuel + 1, text =>
    match text with
    | '"' :: keyText =>
      match stringRest keyText.length.succ keyText with
      | none => none
      | some (key, afterKey) =>
        match skip afterKey with
        | ':' :: valueText =>
          match value fuel (skip valueText) with
          | none => none
          | some (item, after) =>
            match skip after with
            | '\x7d' :: rest => some ([(.name key, item)], rest)
            | ',' :: rest =>
              (mappingRest fuel (skip rest)).map fun found =>
                ((.name key, item) :: found.1, found.2)
            | _ => none
        | _ => none
    | _ => none

end

def read? (text : Text) : Option Value :=
  match value (2 * text.length + 2) (skip text) with
  | none => none
  | some (found, rest) => if (skip rest).isEmpty then some found else none

end Json

end Scaffold
