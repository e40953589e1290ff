import Scaffold.Text.Quoted

/-!
# Configuration values

Configuration is read from formats whose values have kinds that are only known
when they are read.  Mappings keep their entries in order and have each key once.
-/

namespace Scaffold

/-- The key of an entry: a name, or another value by the way it is shown. -/
inductive Key where
  | name (text : Text)
  | other (shown : Text)
  deriving Repr, DecidableEq

/-- A configuration value. -/
inductive Value where
  | null
  | bool (value : Bool)
  | integer (value : Int)
  /-- Decimal digits times a power of ten. -/
  | decimal (isNegative : Bool) (digits : Nat) (exponent : Int)
  /-- A scalar of another kind, by the way it is shown: a date or a number that
  is infinite or not a number. -/
  | scalar (shown : Text)
  | text (value : Text)
  | list (items : List Value)
  | mapping (entries : List (Key × Value))
  deriving Repr, Inhabited

namespace Key

def shown : Key → Text
  | name text => text
  | other text => text

/-- The key as it is shown inside a mapping. -/
def quoted : Key → Text
  | name text => Text.quoted text
  | other text => text

end Key

namespace Value

/-- The value of a key in some entries. -/
def find? (key : Key) (entries : List (Key × Value)) : Option Value :=
  (entries.find? fun entry => entry.1 == key).map Prod.snd

/-- Replaces the value of a key, or adds an entry for it. -/
def insert (key : Key) (value : Value) : List (Key × Value) → List (Key × Value)
  | [] => [(key, value)]
  | entry :: rest =>
    if entry.1 = key then (key, value) :: rest else entry :: insert key value rest

/-- Entries with each key once: the last value counts, at the place of the
first. -/
def ofEntries (entries : List (Key × Value)) : Value :=
  mapping (entries.foldl (fun known entry => insert entry.1 entry.2 known) [])

/-- The mapping with named entries. -/
def ofNamed (entries : List (Text × Value)) : Value :=
  mapping (entries.map fun entry => (Key.name entry.1, entry.2))

/-- Null, false, zero and everything empty count as nothing. -/
def isNothing : Value → Bool
  | null => true
  | bool value => !value
  | integer value => value == 0
  | decimal _ digits _ => digits == 0
  | scalar _ => false
  | text value => value.isEmpty
  | list items => items.isEmpty
  | mapping entries => entries.isEmpty

def isMapping : Value → Bool
  | mapping _ => true
  | _ => false

mutual

/-- A value laid over another one: mappings are merged, anything else replaces
what was there. -/
def overlay (base : Value) : Value → Value
  | mapping added =>
    match base with
    | mapping present => mapping (mergeEntries present added)
    | _ => mapping added
  | value => value

/-- Lays entries over others one after the other. -/
def mergeEntries (present : List (Key × Value)) : List (Key × Value) → List (Key × Value)
  | [] => present
  | (key, value) :: rest =>
    let merged :=
      match find? key present with
      | some base => base.overlay value
      | none => value
    mergeEntries (insert key merged present) rest

end

/-- The digits without zeros at their end, and the exponent that makes up for
them; the fuel bounds the number of zeros. -/
def dropZeros : Nat → Nat → Int → Nat × Int
  | 0, digits, exponent => (digits, exponent)
  | fuel + 1, digits, exponent =>
    if digits % 10 = 0 ∧ digits ≠ 0 then dropZeros fuel (digits / 10) (exponent + 1)
    else (digits, exponent)

/-- Digits written with a point at a place counted from their beginning. -/
def positional (digits : Text) (place : Int) : Text :=
  if place ≤ 0 then "0." ++ Text.times (-place).toNat '0' ++ digits
  else
    let whole := digits.take place.toNat ++ Text.times (place.toNat - digits.length) '0'
    let fraction := digits.drop place.toNat
    whole ++ ['.'] ++ if fraction.isEmpty then ['0'] else fraction

/-- Digits written with an exponent of at least two digits. -/
def scientific (digits : Text) (place : Int) : Text :=
  let power := place - 1
  let shownPower := Text.ofNat power.natAbs
  let fraction := digits.drop 1
  digits.take 1 ++ (if fraction.isEmpty then [] else '.' :: fraction) ++
    ['e', if power < 0 then '-' else '+'] ++
    (if shownPower.length < 2 then '0' :: shownPower else shownPower)

/-- A decimal number as it is shown: positional unless it is very small or very
large. -/
def shownDecimal (isNegative : Bool) (digits : Nat) (exponent : Int) : Text :=
  let sign : Text := if isNegative then ['-'] else []
  if digits = 0 then sign ++ "0.0"
  else
    let (kept, power) := dropZeros digits digits exponent
    let shownDigits := Text.ofNat kept
    let place := power + shownDigits.length
    sign ++ if -4 < place ∧ place ≤ 16 then positional shownDigits place
      else scientific shownDigits place

def shownInteger (value : Int) : Text :=
  if value < 0 then '-' :: Text.ofNat value.natAbs else Text.ofNat value.natAbs

def shownBool (value : Bool) : Text :=
  if value then "True" else "False"

mutual

/-- A value as it is shown inside a list or a mapping. -/
def quoted : Value → Text
  | null => "None"
  | bool value => shownBool value
  | integer value => shownInteger value
  | decimal isNegative digits exponent => shownDecimal isNegative digits exponent
  | scalar shown => shown
  | text value => Text.quoted value
  | list items => "[" ++ Text.join ", " (quotedItems items) ++ "]"
  | mapping entries => "\x7b" ++ Text.join ", " (quotedEntries entries) ++ "\x7d"

/-- Several values as they are shown. -/
def quotedItems : List Value → List Text
  | [] => []
  | item :: rest => item.quoted :: quotedItems rest

/-- Several entries as they are shown. -/
def quotedEntries : List (Key × Value) → List Text
  | [] => []
  | (key, value) :: rest =>
    (key.quoted ++ ": " ++ value.quoted) :: quotedEntries rest

end

/-- A value as it is shown on its own: a text without quotes. -/
def shown : Value → Text
  | text alone => alone
  | other => other.quoted

mutual

/-- The values are the same. -/
def isSame : Value → Value → Bool
  | null, null => true
  | bool value, bool other => value == other
  | integer value, integer other => value == other
  | decimal isNegative digits exponent, decimal isOtherNegative otherDigits otherExponent =>
    isNegative == isOtherNegative && digits == otherDigits && exponent == otherExponent
  | scalar shown, scalar other => shown == other
  | text value, text other => value == other
  | list items, list others => areSameItems items others
  | mapping entries, mapping others => areSameEntries entries others
  | _, _ => false

/-- The items are the same, one after the other. -/
def areSameItems : List Value → List Value → Bool
  | [], [] => true
  | item :: rest, other :: others => item.isSame other && areSameItems rest others
  | _, _ => false

/-- The entries are the same, one after the other. -/
def areSameEntries : List (Key × Value) → List (Key × Value) → Bool
  | [], [] => true
  | (key, value) :: rest, (otherKey, other) :: others =>
    key == otherKey && value.isSame other && areSameEntries rest others
  | _, _ => false

end

mutual

theorem isSame_iff : ∀ value other : Value, value.isSame other = true ↔ value = other
  | list items, list others => by
      rw [isSame, areSameItems_iff items others, list.injEq]
  | mapping entries, mapping others => by
      rw [isSame, areSameEntries_iff entries others, mapping.injEq]
  | null, other | bool _, other | integer _, other | decimal .., other | scalar _, other
  | text _, other => by cases other <;> simp [isSame, and_assoc]
  | list _, null | list _, bool _ | list _, integer _ | list _, decimal .. | list _, scalar _
  | list _, text _ | list _, mapping _ => by simp [isSame]
  | mapping _, null | mapping _, bool _ | mapping _, integer _ | mapping _, decimal ..
  | mapping _, scalar _ | mapping _, text _ | mapping _, list _ => by simp [isSame]

theorem areSameItems_iff : ∀ items others : List Value,
    areSameItems items others = true ↔ items = others
  | [], [] | [], _ :: _ | _ :: _, [] => by simp [areSameItems]
  | item :: rest, other :: others => by
      rw [areSameItems, Bool.and_eq_true, isSame_iff item other, areSameItems_iff rest others,
        List.cons.injEq]

theorem areSameEntries_iff : ∀ entries others : List (Key × Value),
    areSameEntries entries others = true ↔ entries = others
  | [], [] | [], _ :: _ | _ :: _, [] => by simp [areSameEntries]
  | (key, value) :: rest, (otherKey, other) :: others => by
      rw [areSameEntries, Bool.and_eq_true, Bool.and_eq_true, isSame_iff value other,
        areSameEntries_iff rest others, List.cons.injEq, Prod.mk.injEq, beq_iff_eq]

end

instance : DecidableEq Value := fun value other =>
  decidable_of_iff (value.isSame other = true) (isSame_iff value other)

end Value

end Scaffold
