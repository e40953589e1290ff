import Scaffold.Json.Reader
import Scaffold.Yaml.Token

/-!
# Scalars of YAML

Quoted scalars, block scalars and plain scalars.  A single line break between
words becomes a blank, further ones are kept.
-/

namespace Scaffold

namespace Yaml

open Cursor

/-- A scalar text and where it ends, unless it is malformed. -/
abbrev Scanned := Option (Text × Cursor)

/-! ## Quoted scalars -/

/-- The line breaks after blanks between quotes, joined.  A document mark may not
stand there. -/
def quotedBreaks : Nat → Cursor → Scanned
  | 0, _ => none
  | fuel + 1, cursor =>
    if cursor.atDocumentMark then none
    else
      let cursor := (cursor.span fun character => character == ' ' || character == '\t').2
      match cursor.lineBreak with
      | ([], _) => some ([], cursor)
      | (found, after) =>
        (quotedBreaks fuel after).map fun more => (found ++ more.1, more.2)

/-- Blanks and line breaks between quotes. -/
def quotedSpaces (cursor : Cursor) : Scanned :=
  let (blanks, after) := cursor.span fun character => character == ' ' || character == '\t'
  if (after.peek? 0).isNone then none
  else
    match after.lineBreak with
    | ([], _) => some (blanks, after)
    | (found, next) =>
      match quotedBreaks next.bound next with
      | none => none
      | some (breaks, following) =>
        let first : Text :=
          if found ≠ ['\n'] then found else if breaks.isEmpty then [' '] else []
        some (first ++ breaks, following)

/-- The characters after a backslash between double quotes that stand for one
character. -/
def doubleEscapes : List (Char × Nat) :=
  [('0', 0), ('a', 7), ('b', 8), ('t', 9), ('\t', 9), ('n', 10), ('v', 11), ('f', 12),
    ('r', 13), ('e', 27), (' ', 32), ('"', 34), ('\\', 92), ('/', 47), ('N', 0x85),
    ('_', 0xA0), ('L', 0x2028), ('P', 0x2029)]

/-- The letters after a backslash that are followed by hexadecimal digits, with
the number of these. -/
def codeEscapes : List (Char × Nat) :=
  [('x', 2), ('u', 4), ('U', 8)]

/-- An escape after its backslash. -/
def doubleEscape (cursor : Cursor) : Scanned :=
  match cursor.rest with
  | [] => none
  | letter :: following =>
    match doubleEscapes.find? fun entry => entry.1 == letter with
    | some entry => some ([Char.ofNat entry.2], cursor.next)
    | none =>
      match codeEscapes.find? fun entry => entry.1 == letter with
      | some (_, count) =>
        (Json.hexDigits count 0 following).map fun found =>
          ([Char.ofNat found.1], cursor.advance (count + 1))
      | none =>
        if isBreak letter then quotedBreaks cursor.bound cursor.lineBreak.2 else none

/-- The characters that need attention between quotes. -/
def isQuotedMark (character : Char) : Bool :=
  character == Char.ofNat 39 || character == '"' || character == '\\' || character == ' ' ||
    character == '\t' || isBreak character

/-- What stands between quotes up to a blank, a line break or the closing
quote. -/
def quotedWord (quote : Char) : Nat → Cursor → Scanned
  | 0, _ => none
  | fuel + 1, cursor =>
    let isDouble := quote == '"'
    let apostrophe := Char.ofNat 39
    let (plain, after) := cursor.span fun character => !isQuotedMark character
    let continued (text : Text) (next : Cursor) : Scanned :=
      (quotedWord quote fuel next).map fun more => (plain ++ text ++ more.1, more.2)
    match after.peek? 0 with
    | none => some (plain, after)
    | some mark =>
      if !isDouble && mark == apostrophe && after.peek? 1 == some apostrophe then
        continued [apostrophe] (after.advance 2)
      else if (isDouble && mark == apostrophe) ||
          (!isDouble && (mark == '"' || mark == '\\')) then
        continued [mark] after.next
      else if isDouble && mark == '\\' then
        match doubleEscape after.next with
        | none => none
        | some (text, next) => continued text next
      else some (plain, after)

/-- The rest of a quoted scalar after words and before blanks. -/
def quotedRest (quote : Char) : Nat → Cursor → Scanned
  | 0, _ => none
  | fuel + 1, cursor =>
    match quotedWord quote cursor.bound cursor with
    | none => none
    | some (word, after) =>
      if after.startsWith quote then some (word, after.next)
      else
        match quotedSpaces after with
        | none => none
        | some (spaces, next) =>
          (quotedRest quote fuel next).map fun more => (word ++ spaces ++ more.1, more.2)

/-- A quoted scalar from its opening quote on. -/
def quotedScalar (quote : Char) (cursor : Cursor) : Scanned :=
  quotedRest quote (cursor.bound + 1) cursor.next

/-! ## Block scalars -/

/-- What happens to the line breaks at the end of a block scalar. -/
inductive Chomping where
  | clip
  | strip
  | keep
  deriving Repr, DecidableEq

/-- The chomping that a character asks for. -/
def chomping? : Option Char → Option Chomping
  | some '+' => some .keep
  | some '-' => some .strip
  | _ => none

/-- The indentation that a character asks for; zero is refused later. -/
def increment? : Option Char → Option Nat
  | some character =>
    if '0'.toNat ≤ character.toNat && character.toNat ≤ '9'.toNat then
      some (character.toNat - 48)
    else none
  | none => none

/-- What the line of a block scalar's indicator says. -/
structure BlockHeader where
  chomping : Chomping := .clip
  increment? : Option Nat := none

/-- Reads chomping and indentation in either order. -/
def blockHeader (cursor : Cursor) : BlockHeader × Cursor :=
  match chomping? (cursor.peek? 0), increment? (cursor.peek? 0) with
  | some chomping, _ =>
    match increment? (cursor.peek? 1) with
    | some increment => (⟨chomping, some increment⟩, cursor.advance 2)
    | none => (⟨chomping, none⟩, cursor.next)
  | none, some increment =>
    match chomping? (cursor.peek? 1) with
    | some chomping => (⟨chomping, some increment⟩, cursor.advance 2)
    | none => (⟨.clip, some increment⟩, cursor.next)
  | none, none => ({}, cursor)

/-- Past blanks, a comment and the end of the line. -/
def restOfLine? (cursor : Cursor) : Option Cursor :=
  let cursor := cursor.skipBlanks
  let cursor :=
    if cursor.startsWith '#' then (cursor.span fun character => !isBreak character).2 else cursor
  if endsLine (cursor.peek? 0) then some cursor.lineBreak.2 else none

/-- Line breaks before the first line of a block scalar, and the deepest
indentation among them. -/
def leadingBreaks : Nat → Nat → Cursor → Text × Nat × Cursor
  | 0, deepest, cursor => ([], deepest, cursor)
  | fuel + 1, deepest, cursor =>
    if cursor.startsWith ' ' then
      let after := cursor.next
      leadingBreaks fuel (max deepest after.column) after
    else
      match cursor.lineBreak with
      | ([], _) => ([], deepest, cursor)
      | (found, after) =>
        let (more, final, following) := leadingBreaks fuel deepest after
        (found ++ more, final, following)

/-- Past blanks up to a column; the fuel bounds their number. -/
def skipTo (column : Nat) : Nat → Cursor → Cursor
  | 0, cursor => cursor
  | fuel + 1, cursor =>
    if cursor.column < column && cursor.startsWith ' ' then skipTo column fuel cursor.next
    else cursor

/-- The line breaks between the lines of a block scalar. -/
def blockBreaks (indent : Nat) : Nat → Cursor → Text × Cursor
  | 0, cursor => ([], cursor)
  | fuel + 1, cursor =>
    let cursor := skipTo indent cursor.bound cursor
    match cursor.lineBreak with
    | ([], _) => ([], cursor)
    | (found, after) =>
      let (more, following) := blockBreaks indent fuel after
      (found ++ more, following)

/-- The line does not begin with a blank or a tab. -/
def startsFlush (cursor : Cursor) : Bool :=
  !(cursor.startsWith ' ' || cursor.startsWith '\t')

/-- The lines of a block scalar, given the line breaks before the next one. -/
def blockLines (isFolded : Bool) (chomping : Chomping) (indent : Nat) :
    Nat → Text → Cursor → Text × Cursor
  | 0, _, cursor => ([], cursor)
  | fuel + 1, breaks, cursor =>
    let (line, atEnd) := cursor.span fun character => !isBreak character
    let (lineEnd, afterLine) := atEnd.lineBreak
    let (nextBreaks, next) := blockBreaks indent afterLine.bound afterLine
    if next.column = indent ∧ (next.peek? 0).isSome then
      let joint : Text :=
        if isFolded && lineEnd == ['\n'] && startsFlush cursor && startsFlush next then
          if nextBreaks.isEmpty then [' '] else []
        else lineEnd
      let (more, following) := blockLines isFolded chomping indent fuel nextBreaks next
      (breaks ++ line ++ joint ++ more, following)
    else
      let ending : Text :=
        match chomping with
        | .strip => []
        | .clip => lineEnd
        | .keep => lineEnd ++ nextBreaks
      (breaks ++ line ++ ending, next)

/-- A block scalar from its indicator on, inside a collection with the given
indentation, which is negative outside all collections. -/
def blockScalar (parent : Int) (cursor : Cursor) : Scanned :=
  let isFolded := cursor.startsWith '>'
  let (header, afterHeader) := blockHeader cursor.next
  if header.increment? = some 0 then none
  else if !(endsWord (afterHeader.peek? 0)) || afterHeader.startsWith '\t' then none
  else
    match restOfLine? afterHeader with
    | none => none
    | some start =>
      let least := max 1 (parent + 1).toNat
      let (breaks, indent, first) :=
        match header.increment? with
        | some increment =>
          let indent := least + increment - 1
          let (breaks, first) := blockBreaks indent start.bound start
          (breaks, indent, first)
        | none =>
          let (breaks, deepest, first) := leadingBreaks start.bound 0 start
          (breaks, max least deepest, first)
      if first.column = indent ∧ (first.peek? 0).isSome then
        some (blockLines isFolded header.chomping indent first.bound breaks first)
      else if header.chomping = .keep then some (breaks, first)
      else some ([], first)

/-! ## Plain scalars -/

/-- The characters that end a plain scalar inside brackets. -/
def isFlowMark (character : Char) : Bool :=
  [',', '?', '[', ']', '\x7b', '\x7d'].contains character

/-- The number of characters of a plain word. -/
def plainLength (inFlow : Bool) : Text → Nat
  | [] => 0
  | character :: rest =>
    let following := rest.head?
    let endsKey :=
      character == ':' &&
        (endsWord following ||
          (inFlow && following.any fun next => next != '?' && isFlowMark next))
    if endsWord (some character) || endsKey || (inFlow && isFlowMark character) then 0
    else plainLength inFlow rest + 1

/-- Line breaks and blanks after the first line break between plain words; none
before a document mark.  A document mark ends them. -/
def plainBreaks : Nat → Cursor → Option Text × Cursor
  | 0, cursor => (some [], cursor)
  | fuel + 1, cursor =>
    if cursor.startsWith ' ' then plainBreaks fuel cursor.next
    else
      match cursor.lineBreak with
      | ([], _) => (some [], cursor)
      | (found, after) =>
        if after.atDocumentMark then (none, after)
        else
          let (more, following) := plainBreaks fuel after
          (more.map (found ++ ·), following)

/-- What separates plain words, whether it holds a line break, and where it
ends.  Nothing separates words across a document mark. -/
def plainSpaces (cursor : Cursor) : Text × Bool × Cursor :=
  let (blanks, after) := cursor.span (· == ' ')
  match after.lineBreak with
  | ([], _) => (blanks, false, after)
  | (found, next) =>
    if next.atDocumentMark then ([], true, next)
    else
      match plainBreaks next.bound next with
      | (none, following) => ([], true, following)
      | (some breaks, following) =>
        let first : Text :=
          if found ≠ ['\n'] then found else if breaks.isEmpty then [' '] else []
        (first ++ breaks, true, following)

/-- A plain scalar with the separator before its next word; tells whether a line
break was read after the last word. -/
def plainWords (inFlow : Bool) (indent : Int) :
    Nat → Text → Bool → Cursor → Text × Bool × Cursor
  | 0, _, brokeLine, cursor => ([], brokeLine, cursor)
  | fuel + 1, separator, brokeLine, cursor =>
    let length := if cursor.startsWith '#' then 0 else plainLength inFlow cursor.rest
    if length = 0 then ([], brokeLine, cursor)
    else
      let word := cursor.rest.take length
      let (spaces, breaksLine, next) := plainSpaces (cursor.advance length)
      if spaces.isEmpty || next.startsWith '#' || (!inFlow && next.column < indent) then
        (separator ++ word, breaksLine, next)
      else
        let (more, final, following) :=
          plainWords inFlow indent fuel spaces breaksLine next
        (separator ++ word ++ more, final, following)

end Yaml

end Scaffold
