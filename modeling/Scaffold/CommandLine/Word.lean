import Scaffold.CommandLine.Flag
import Scaffold.Text.Word

/-!
# The words of the command line

A word of the command line is a flag, perhaps with something attached to it, or
not.  Words that look like negative numbers or hold a blank are no flags unless
they begin with one.
-/

namespace Scaffold

namespace CommandLine

/-- How a flag is written. -/
inductive Spelling where
  | long
  | letter
  deriving Repr, DecidableEq

/-- What is attached to a flag. -/
structure Attached where
  /-- An equals sign stands before the text. -/
  isJoined : Bool
  text : Text
  deriving Repr, DecidableEq

/-- A word of the command line. -/
inductive Word where
  | flag (spelling : Spelling) (flag : Flag) (attached? : Option Attached)
  /-- A word that is written like a flag but is none. -/
  | unknown
  | value (text : Text)
  /-- The word after which there are no more flags. -/
  | separator
  deriving Repr, DecidableEq

namespace Word

def mark : Char := '-'

/-- The word after which there are no more flags. -/
def separatorText : Text := [mark, mark]

/-- The flag that is written as a whole word. -/
def whole? (text : Text) : Option (Spelling × Flag) :=
  match text with
  | ['-', letter] => (Flag.ofLetter? letter).map fun flag => (.letter, flag)
  | _ => (Flag.all.find? fun flag => flag.longName == text).map fun flag => (.long, flag)

/-- The text before the first equals sign, and the text after it. -/
def atEquals (text : Text) : Text × Option Text :=
  match text.span (· ≠ '=') with
  | (before, _ :: after) => (before, some after)
  | (before, []) => (before, none)

/-- The text is written like a negative number. -/
def isNegativeNumber (text : Text) : Bool :=
  match if text.getLast? = some '\n' then List.dropLast text else text with
  | '-' :: number =>
    match number.span Text.isDigit with
    | (digits, []) => !digits.isEmpty
    | (_, '.' :: decimals) => !decimals.isEmpty && decimals.all Text.isDigit
    | _ => false
  | _ => false

/-- A word that begins with no flag. -/
def other (text : Text) : Word :=
  if isNegativeNumber text || text.contains ' ' then .value text else .unknown

/-- A word that begins with the mark and is no flag as a whole; none if it could
mean several flags. -/
def ofMarked? (text : Text) : Option Word :=
  let (name, joined?) := atEquals text
  match joined?, whole? name with
  | some joined, some (spelling, found) => some (.flag spelling found (some ⟨true, joined⟩))
  | _, _ =>
    match text with
    | '-' :: '-' :: _ =>
      match Flag.beginningWith name with
      | [] => some (other text)
      | [found] => some (.flag .long found (joined?.map fun joined => ⟨true, joined⟩))
      | _ => none
    | '-' :: letter :: rest =>
      match Flag.ofLetter? letter with
      | some found => some (.flag .letter found (some ⟨false, rest⟩))
      | none => some (other text)
    | _ => some (.value text)

/-- What a text means as a word of the command line; none if it could mean
several flags. -/
def ofText? (text : Text) : Option Word :=
  if text = separatorText then some .separator
  else if text.head? ≠ some mark ∨ text = [mark] then some (.value text)
  else
    match whole? text with
    | some (spelling, found) => some (.flag spelling found none)
    | none => ofMarked? text

/-- What texts mean as words of the command line. -/
def ofTexts? : List Text → Option (List Word)
  | [] => some []
  | text :: rest =>
    match ofText? text with
    | none => none
    | some .separator => some (.separator :: rest.map .value)
    | some word => (ofTexts? rest).map (word :: ·)

end Word

end CommandLine

end Scaffold
