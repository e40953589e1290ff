import Scaffold.Text.Basic

/-!
# Classes of characters given by ranges

A property of characters is carried as ascending closed ranges of code points
(Unicode 14).
-/

namespace Scaffold

namespace Text

/-- The number lies in one of the closed ranges. -/
def inRanges (ranges : List (Nat × Nat)) (number : Nat) : Bool :=
  ranges.any fun range => range.1 ≤ number && number ≤ range.2

end Text

end Scaffold
