import Scaffold.Json.Reader

/-!
# Plain scalars

What a plain scalar stands for is decided by its form: null, a truth value, an
integer in one of several bases, a number with a point, a date, or else text.
-/

namespace Scaffold

namespace Yaml

def nullForms : List Text :=
  ["", "~", "null", "Null", "NULL"]

def trueForms : List Text :=
  ["yes", "Yes", "YES", "true", "True", "TRUE", "on", "On", "ON"]

def falseForms : List Text :=
  ["no", "No", "NO", "false", "False", "FALSE", "off", "Off", "OFF"]

/-- The sign that a text begins with, whether it is negative, and the rest. -/
def signed : Text → Bool × Text
  | '+' :: rest => (false, rest)
  | '-' :: rest => (true, rest)
  | rest => (false, rest)

/-- A digit of decimals or a low line. -/
def isSpacedDigit (character : Char) : Bool :=
  Text.isAsciiDigit character || character == '_'

def unspaced (text : Text) : Text :=
  text.filter (· ≠ '_')

/-- The value of the digits of a base, low lines left out. -/
def baseValue (base : Nat) (digits : Text) : Nat :=
  (unspaced digits).foldl
    (fun value digit => value * base + (Json.hexDigit? digit).getD 0) 0

/-- Digits of a base, at least one of them, possibly with low lines between. -/
def isBaseNumber (base : Nat) (digits : Text) : Bool :=
  !(unspaced digits).isEmpty &&
    (unspaced digits).all fun digit => (Json.hexDigit? digit).any (· < base)

/-- Digits of base ten that may have low lines after the first. -/
def isDecimalNumber : Text → Bool
  | [] => false
  | first :: rest => Text.isAsciiDigit first && rest.all isSpacedDigit

/-- One or two digits of base sixty. -/
def isSixtieth : Text → Bool
  | [digit] => Text.isAsciiDigit digit
  | [tens, digit] => Text.isAsciiDigit tens && tens.toNat ≤ 53 && Text.isAsciiDigit digit
  | _ => false

/-- The value of digits of base sixty. -/
def sixtiethsValue (parts : List Text) : Nat :=
  parts.foldl (fun value part => value * 60 + baseValue 10 part) 0

def magnitude? (text : Text) : Option Nat :=
  match text with
  | '0' :: 'b' :: digits => if isBaseNumber 2 digits then some (baseValue 2 digits) else none
  | '0' :: 'x' :: digits => if isBaseNumber 16 digits then some (baseValue 16 digits) else none
  | ['0'] => some 0
  | '0' :: digits =>
    if digits.all fun digit => digit == '_' || (Json.hexDigit? digit).any (· < 8) then
      some (baseValue 8 digits)
    else none
  | _ =>
    match Text.splitOn ':' text with
    | [digits] => if isDecimalNumber digits then some (baseValue 10 digits) else none
    | first :: parts =>
      if isDecimalNumber first && parts.all isSixtieth then
        some (sixtiethsValue (first :: parts))
      else none
    | [] => none

/-- An integer in one of its forms. -/
def integer? (text : Text) : Option Value :=
  let (isNegative, rest) := signed text
  (magnitude? rest).map fun magnitude =>
    .integer (if isNegative then -(magnitude : Int) else magnitude)

/-- The exponent after the digits of a number; its sign is required. -/
def signedExponent? : Text → Option Int
  | [] => some 0
  | letter :: sign :: digits =>
    if (letter = 'e' ∨ letter = 'E') ∧ (sign = '+' ∨ sign = '-') ∧ !digits.isEmpty ∧
        digits.all Text.isAsciiDigit then
      let power : Int := Json.digitsValue digits
      some (if sign = '-' then -power else power)
    else none
  | _ => none

/-- A number with a point, the digits before which are given. -/
def pointed? (isNegative : Bool) (whole : Nat) (fractionText : Text) : Option Value :=
  let fraction := fractionText.takeWhile isSpacedDigit
  (signedExponent? (fractionText.drop fraction.length)).map fun power =>
    let places := (unspaced fraction).length
    .decimal isNegative (whole * Nat.pow 10 places + baseValue 10 fraction) (power - places)

/-- A number that is not an integer, in one of its forms. -/
def decimal? (text : Text) : Option Value :=
  let (isNegative, rest) := signed text
  let isSigned := rest.length < text.length
  if rest ∈ [".inf", ".Inf", ".INF"].map String.toList then
    some (.scalar (if isNegative then "-inf" else "inf"))
  else if text ∈ [".nan", ".NaN", ".NAN"].map String.toList then some (.scalar "nan")
  else
    let whole := rest.takeWhile fun character => isSpacedDigit character || character == ':'
    match rest.drop whole.length with
    | '.' :: fraction =>
      if whole.isEmpty then
        if !isSigned && fraction.head?.any Text.isAsciiDigit then pointed? false 0 fraction
        else none
      else
        match Text.splitOn ':' whole with
        | [digits] =>
          if isDecimalNumber digits then pointed? isNegative (baseValue 10 digits) fraction
          else none
        | first :: parts =>
          if isDecimalNumber first && parts.all isSixtieth && fraction.all isSpacedDigit then
            pointed? isNegative (sixtiethsValue (first :: parts)) fraction
          else none
        | [] => none
    | _ => none

/-- The text is made of digits, of a number that lies between two bounds. -/
def isDigits (least most : Nat) (text : Text) : Bool :=
  least ≤ text.length && text.length ≤ most && text.all Text.isAsciiDigit

def isGap (character : Char) : Bool :=
  character == ' ' || character == '\t'

/-- The zone at the end of a time of day. -/
def isZone (text : Text) : Bool :=
  let zone := text.dropWhile isGap
  match zone with
  | [] => text.isEmpty
  | ['Z'] => true
  | sign :: offset =>
    (sign == '+' || sign == '-') &&
      match Text.splitOn ':' offset with
      | [hours] => isDigits 1 2 hours
      | [hours, minutes] => isDigits 1 2 hours && isDigits 2 2 minutes
      | _ => false

def isTime (text : Text) : Bool :=
  match Text.splitOn ':' text with
  | hours :: minutes :: parts =>
    let last := Text.join [':'] parts
    let seconds := last.takeWhile Text.isAsciiDigit
    let rest := last.drop seconds.length
    let zone :=
      match rest with
      | '.' :: fraction => fraction.dropWhile Text.isAsciiDigit
      | _ => rest
    isDigits 1 2 hours && isDigits 2 2 minutes && isDigits 2 2 seconds && isZone zone
  | _ => false

/-- A date, possibly with a time of day. -/
def isTimestamp (text : Text) : Bool :=
  match Text.splitOn '-' text with
  | year :: month :: parts =>
    let last := Text.join ['-'] parts
    let day := last.takeWhile Text.isAsciiDigit
    let rest := last.drop day.length
    isDigits 4 4 year &&
      ((isDigits 2 2 month && isDigits 2 2 day && rest.isEmpty) ||
        (isDigits 1 2 month && isDigits 1 2 day &&
          match rest with
          | 'T' :: time => isTime time
          | 't' :: time => isTime time
          | gap :: time => isGap gap && isTime (time.dropWhile isGap)
          | [] => false))
  | _ => false

/-- The key that merges other mappings into one. -/
def mergeKey : Text := ['<', '<']

/-- The key that stands for a default value. -/
def defaultKey : Text := ['=']

/-- The value of a plain scalar; the two special keys are no values. -/
def plainValue? (text : Text) : Option Value :=
  if text ∈ nullForms then some .null
  else if text ∈ trueForms then some (.bool true)
  else if text ∈ falseForms then some (.bool false)
  else if text = mergeKey ∨ text = defaultKey then none
  else
    match decimal? text with
    | some value => some value
    | none =>
      match integer? text with
      | some value => some value
      | none => if isTimestamp text then some (.scalar text) else some (.text text)

/-- Read as a plain scalar, the text is text. -/
def isPlainText (text : Text) : Bool :=
  match plainValue? text with
  | some (.text _) => true
  | _ => false

end Yaml

end Scaffold
