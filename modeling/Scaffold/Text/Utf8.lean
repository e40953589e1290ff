import Scaffold.Text.Basic

/-!
# Text as bytes

Files hold bytes, read and written as UTF-8.  Reading accepts exactly the
shortest encodings of code points outside the surrogate range.  A fault names
the longest beginning of a sequence that could have been continued, and why it
was not.
-/

namespace Scaffold

/-- The content of a file. -/
abbrev Bytes := List UInt8

/-- Why a byte sequence is not UTF-8. -/
inductive Utf8Reason where
  | invalidStart
  | invalidContinuation
  | unexpectedEnd
  deriving Repr, DecidableEq

/-- A run of bytes that is not UTF-8: the bytes from `start` up to but not
including `stop`, the first of which is `first`. -/
structure Utf8Fault where
  start : Nat
  stop : Nat
  first : UInt8
  reason : Utf8Reason
  deriving Repr, DecidableEq

namespace Utf8Reason

def message : Utf8Reason → Text
  | invalidStart => "invalid start byte"
  | invalidContinuation => "invalid continuation byte"
  | unexpectedEnd => "unexpected end of data"

end Utf8Reason

namespace Utf8Fault

/-- One bad byte is shown, several are only counted. -/
def message (fault : Utf8Fault) : Text :=
  let place : Text :=
    if fault.stop = fault.start + 1 then
      "byte 0x" ++ Text.hex 2 fault.first.toNat ++ " in position " ++ Text.ofNat fault.start
    else
      "bytes in position " ++ Text.ofNat fault.start ++ "-" ++ Text.ofNat (fault.stop - 1)
  "'utf-8' codec can't decode " ++ place ++ ": " ++ fault.reason.message

end Utf8Fault

namespace Utf8

def encodeChar (character : Char) : Bytes :=
  let code := character.toNat
  let byte (number : Nat) : UInt8 := UInt8.ofNat number
  let tail (shift : Nat) : UInt8 := byte (0x80 + code / shift % 64)
  if code < 0x80 then [byte code]
  else if code < 0x800 then [byte (0xC0 + code / 64), tail 1]
  else if code < 0x10000 then [byte (0xE0 + code / 4096), tail 64, tail 1]
  else [byte (0xF0 + code / 262144), tail 4096, tail 64, tail 1]

def encode (text : Text) : Bytes :=
  text.flatMap encodeChar

/-- The number of bytes of a text. -/
def size (text : Text) : Nat :=
  (encode text).length

/-- How a sequence starts: the number of bytes after the first one, the part of
the code point that the first one carries, and the bounds of the second one. -/
structure Lead where
  following : Nat
  carried : Nat
  lowest : Nat
  highest : Nat

/-- What a first byte announces; `none` for a byte that starts nothing. -/
def lead? (byte : Nat) : Option Lead :=
  if byte < 0x80 then some ⟨0, byte, 0x80, 0xBF⟩
  else if byte < 0xC2 then none
  else if byte < 0xE0 then some ⟨1, byte - 0xC0, 0x80, 0xBF⟩
  else if byte < 0xF0 then
    some ⟨2, byte - 0xE0, if byte = 0xE0 then 0xA0 else 0x80, if byte = 0xED then 0x9F else 0xBF⟩
  else if byte < 0xF5 then
    some ⟨3, byte - 0xF0, if byte = 0xF0 then 0x90 else 0x80, if byte = 0xF4 then 0x8F else 0xBF⟩
  else none

/-- Reads the bytes after the first one.  The answer is the code point with
the rest, or the number of bytes that could be read and why it ended there. -/
def continuation : Nat → Nat → Nat → Nat → Nat → Bytes → Except (Nat × Utf8Reason) (Nat × Bytes)
  | 0, _, _, _, code, rest => .ok (code, rest)
  | _ + 1, taken, _, _, _, [] => .error (taken, .unexpectedEnd)
  | following + 1, taken, lowest, highest, code, byte :: rest =>
    if lowest ≤ byte.toNat ∧ byte.toNat ≤ highest then
      continuation following (taken + 1) 0x80 0xBF (code * 64 + (byte.toNat - 0x80)) rest
    else .error (taken, .invalidContinuation)

/-- Decodes the bytes from a position on; the fuel bounds the number of
characters. -/
def decodeFrom : Nat → Nat → Bytes → Except Utf8Fault Text
  | _, _, [] => .ok []
  | 0, _, _ :: _ => .ok []
  | fuel + 1, position, byte :: rest =>
    match lead? byte.toNat with
    | none => .error ⟨position, position + 1, byte, .invalidStart⟩
    | some lead =>
      match continuation lead.following 1 lead.lowest lead.highest lead.carried rest with
      | .error (taken, reason) => .error ⟨position, position + taken, byte, reason⟩
      | .ok (code, remaining) =>
        match decodeFrom fuel (position + 1 + lead.following) remaining with
        | .error fault => .error fault
        | .ok text => .ok (Char.ofNat code :: text)

/-- The text of a byte sequence, or the first fault in it. -/
def decode (bytes : Bytes) : Except Utf8Fault Text :=
  decodeFrom bytes.length 0 bytes

end Utf8

end Scaffold
