import Scaffold.Text.Basic

/-!
# Fresh names

A name that is taken gets the smallest number from two that makes it free.
One of the first numbers must be free, because there are only finitely many
taken names.
-/

namespace Scaffold

namespace FreshName

def numbered (base : Text) (number : Nat) : Text :=
  base ++ Text.ofNat number

/-- The first free candidate among the given number of candidates, counting
from a number on. -/
def search (base : Text) (taken : List Text) : Nat → Nat → Text
  | 0, number => numbered base number
  | remaining + 1, number =>
    if numbered base number ∈ taken then search base taken remaining (number + 1)
    else numbered base number

/-- The base itself if it is free, else the first free numbered candidate. -/
def choose (base : Text) (taken : List Text) : Text :=
  if base ∈ taken then search base taken taken.length 2 else base

end FreshName

end Scaffold
