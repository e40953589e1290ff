import Scaffold.Settings.Value

/-!
# Writing JSON

Values are written over several lines, each level two blanks deeper, and with
escapes for everything outside ASCII.
-/

namespace Scaffold

namespace Json

def unitEscape (code : Nat) : Text :=
  "\\u" ++ Text.hex 4 code

def stringChar (character : Char) : Text :=
  let code := character.toNat
  if character = '"' then ['\\', '"']
  else if character = '\\' then ['\\', '\\']
  else if character = '\n' then ['\\', 'n']
  else if character = '\r' then ['\\', 'r']
  else if character = '\t' then ['\\', 't']
  else if code = 8 then ['\\', 'b']
  else if code = 12 then ['\\', 'f']
  else if 32 ≤ code ∧ code < 127 then [character]
  else if code < 0x10000 then unitEscape code
  else
    unitEscape (0xD800 + (code - 0x10000) / 1024) ++ unitEscape (0xDC00 + (code - 0x10000) % 1024)

def string (text : Text) : Text :=
  ['"'] ++ text.flatMap stringChar ++ ['"']

/-- A line break before a line at a level. -/
def lineAt (level : Nat) : Text :=
  '\n' :: Text.times (2 * level) ' '

/-- A bracketed list of written items at a level. -/
def bracket (opening closing : Char) (level : Nat) (items : List Text) : Text :=
  if items.isEmpty then [opening, closing]
  else
    [opening] ++ lineAt (level + 1) ++ Text.join (',' :: lineAt (level + 1)) items ++
      lineAt level ++ [closing]

def notFinite (shown : Text) : Text :=
  if shown = "nan" then "NaN"
  else if shown = "inf" then "Infinity"
  else if shown = "-inf" then "-Infinity"
  else string shown

mutual

def writeAt (level : Nat) : Value → Text
  | .null => "null"
  | .bool value => if value then "true" else "false"
  | .integer value => Value.shownInteger value
  | .decimal isNegative digits exponent => Value.shownDecimal isNegative digits exponent
  | .scalar shown => notFinite shown
  | .text value => string value
  | .list items => bracket '[' ']' level (writeItems (level + 1) items)
  | .mapping entries => bracket '\x7b' '\x7d' level (writeEntries (level + 1) entries)

def writeItems (level : Nat) : List Value → List Text
  | [] => []
  | item :: rest => writeAt level item :: writeItems level rest

def writeEntries (level : Nat) : List (Key × Value) → List Text
  | [] => []
  | (key, value) :: rest =>
    (string key.shown ++ [':', ' '] ++ writeAt level value) :: writeEntries level rest

end

def write (value : Value) : Text :=
  writeAt 0 value

end Json

end Scaffold
