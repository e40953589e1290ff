import Scaffold.Text.Basic

/-!
# Blank characters

White space in the wide sense: the Unicode property together with the four
information separators U+001C to U+001F.  Trimming and cutting into words go by
this class.
-/

namespace Scaffold

namespace Text

/-- Blank characters: Unicode white space and the information separators. -/
def isBlank (character : Char) : Bool :=
  let code := character.toNat
  (9 ≤ code && code ≤ 13) || (28 ≤ code && code ≤ 32) || code == 0x85 || code == 0xA0 ||
    code == 0x1680 || (0x2000 ≤ code && code ≤ 0x200A) || code == 0x2028 || code == 0x2029 ||
    code == 0x202F || code == 0x205F || code == 0x3000

/-- The Unicode property of white space, without the information separators. -/
def isSpace (character : Char) : Bool :=
  isBlank character && !(28 ≤ character.toNat && character.toNat ≤ 31)

/-- The text without the blanks it begins with. -/
def trimStart (text : Text) : Text :=
  text.dropWhile isBlank

/-- The text without the blanks it ends with. -/
def trimEnd (text : Text) : Text :=
  (text.reverse.dropWhile isBlank).reverse

/-- The text without blanks at either end. -/
def trim (text : Text) : Text :=
  trimEnd (trimStart text)

/-- The first word of a text and what follows the blanks after it, if anything
does. -/
def firstWord? (text : Text) : Option (Text × Text) :=
  let trimmed := trimStart text
  match trimStart (trimmed.dropWhile fun character => !isBlank character) with
  | [] => none
  | rest => some (trimmed.takeWhile fun character => !isBlank character, rest)

end Text

end Scaffold
