import Scaffold.Terminal.Wrapping

/-!
# Markup

A text may hold tags in square brackets that change how it is shown; a tag whose
name starts with a slash ends the effect of an earlier one.  Without colours
nothing is seen of the tags, but a tag that ends nothing is an error.  Backslashes
before a tag stand for half as many, and an odd one makes the tag plain text.
-/

namespace Scaffold

namespace Terminal

/-- A tag that ends the effect of a tag that was not begun. -/
structure MarkupFault where
  tag : Text
  deriving Repr, DecidableEq

namespace Markup

/-- A part of a text with markup: a plain character, or what stands between the
brackets of a tag, with the number of backslashes before it. -/
inductive Piece where
  | plain (character : Char)
  | tag (backslashes : Nat) (body : Text)
  deriving Repr, DecidableEq

/-- What the body of a tag may begin with. -/
def beginsTag (character : Char) : Bool :=
  ('a' ≤ character && character ≤ 'z') || character == '#' || character == '/' || character == '@'

/-- The body of the tag at the beginning of a text. -/
def body? : Text → Option Text
  | '[' :: first :: rest =>
    if beginsTag first then
      let (inner, following) := rest.span fun character => character ≠ '[' && character ≠ ']'
      if following.head? = some ']' then some (first :: inner) else none
    else none
  | _ => none

/-- The tag at the beginning of a text: the number of backslashes before it, and
its body. -/
def tag? (text : Text) : Option (Nat × Text) :=
  let (backslashes, rest) := text.span (· = '\\')
  (body? rest).map fun body => (backslashes.length, body)

def pieces : Text → List Piece
  | [] => []
  | character :: rest =>
    match tag? (character :: rest) with
    | some (backslashes, body) =>
      .tag backslashes body :: pieces (rest.drop (backslashes + body.length + 1))
    | none => .plain character :: pieces rest
termination_by text => text.length
decreasing_by all_goals simp only [List.length_drop, List.length_cons]; omega

/-- Full names of the styles that have a short one. -/
def fullNames : List (Text × Text) :=
  [("b", "bold"), ("d", "dim"), ("i", "italic"), ("u", "underline"), ("r", "reverse"),
    ("c", "conceal"), ("s", "strike"), ("uu", "underline2"), ("o", "overline")]

/-- The name of a style in its full form. -/
def styleName (text : Text) : Text :=
  let name := Text.trim (text.map Char.toLower)
  ((fullNames.find? fun entry => entry.1 == name).map Prod.snd).getD name

/-- A text that is being shown: the characters so far, last character first, and
the names of the tags in effect, last tag first. -/
structure Shown where
  reversed : Text := []
  tags : List Text := []

namespace Shown

def write (shown : Shown) (text : Text) : Shown :=
  { shown with reversed := text.reverse ++ shown.reversed }

/-- Ends the effect of a tag: of the last one, or of the last one of a name. -/
def close (shown : Shown) (body name : Text) : Except MarkupFault Shown :=
  if name.isEmpty then
    match shown.tags with
    | [] => .error ⟨body⟩
    | _ :: tags => .ok { shown with tags := tags }
  else if shown.tags.contains name then .ok { shown with tags := shown.tags.erase name }
  else .error ⟨body⟩

def follow (shown : Shown) (body : Text) : Except MarkupFault Shown :=
  let name := body.takeWhile (· ≠ '=')
  match name with
  | '/' :: closed => shown.close body (styleName closed)
  | _ => .ok { shown with tags := styleName name :: shown.tags }

end Shown

/-- Shows the parts of a text one after the other.  A backslash right before a
bracket that begins no tag is not shown. -/
def show? (shown : Shown) : List Piece → Except MarkupFault Text
  | [] => .ok (printable shown.reversed.reverse)
  | .plain '\\' :: .plain '[' :: rest => show? (shown.write ['[']) rest
  | .plain character :: rest => show? (shown.write [character]) rest
  | .tag backslashes body :: rest =>
    let shown := shown.write (Text.times (backslashes / 2) '\\')
    if backslashes % 2 = 1 then show? (shown.write (['['] ++ body ++ [']'])) rest
    else
      match shown.follow body with
      | .error fault => .error fault
      | .ok next => show? next rest

/-- What is seen of a text with markup. -/
def render (text : Text) : Except MarkupFault Text :=
  show? {} (pieces text)

/-- A part of a text written so that it is seen as it stands. -/
def Piece.escaped : Piece → Text
  | .plain character => [character]
  | .tag backslashes body => Text.times (2 * backslashes + 1) '\\' ++ ['['] ++ body ++ [']']

/-- A text written so that no tag in it has an effect.  A single backslash at the
end is doubled. -/
def escape (text : Text) : Text :=
  let written := (pieces text).flatMap Piece.escaped
  match written.reverse with
  | '\\' :: '\\' :: _ => written
  | '\\' :: _ => written ++ ['\\']
  | _ => written

end Markup

end Terminal

end Scaffold
