import Scaffold.Text.Blank
import Scaffold.Text.Lines

/-!
# Module manifests

A manifest names its module in the first line that has a module directive once
comments are cut off.  The path may stand bare, in double quotes or in back
quotes.
-/

namespace Scaffold

namespace Manifest

def fileName : Text := "go.mod"

/-- The word that begins a directive. -/
def directive : Text := ['m', 'o', 'd', 'u', 'l', 'e']

def commentMark : Text := ['/', '/']

def backQuote : Char := Char.ofNat 96

/-- The text between a quotation mark at the beginning and the next one; none if
the mark comes only once. -/
def quotedBody? (mark : Char) (text : Text) : Option Text :=
  let body := (text.drop 1).takeWhile (· ≠ mark)
  if body.length + 1 < text.length then some body else none

/-- The path that a text begins with.  A quotation mark that is never closed
belongs to a bare path, of which the first and the last character are dropped. -/
def pathOf (text : Text) : Text :=
  let bare := text.takeWhile fun character => !Text.isBlank character
  match text with
  | [] => []
  | mark :: _ =>
    if mark = '"' ∨ mark = backQuote then
      (quotedBody? mark text).getD (Text.dropLast 1 (bare.drop 1))
    else bare

/-- The module path in a line without its comment. -/
def directivePath? (line : Text) : Option Text :=
  let trimmed := Text.trimStart line
  if Text.startsWith directive trimmed then
    let rest := trimmed.drop directive.length
    match rest, Text.trimStart rest with
    | first :: _, path@(_ :: _) => if Text.isBlank first then some (pathOf path) else none
    | _, _ => none
  else none

/-- The module path of a manifest. -/
def modulePath? (manifest : Text) : Option Text :=
  (Text.lines manifest).findSome? fun line => directivePath? (Text.before commentMark line)

end Manifest

end Scaffold
