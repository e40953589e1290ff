/-!
# Stable sorting

Insertion sort by a comparison.  Items that compare equal keep their order,
and the recursion is structural, so sorted lists can be computed inside proofs.
-/

namespace Scaffold

namespace Sorting

variable {α : Type}

/-- Puts an item before the first one that does not come before it. -/
def insert (compare : α → α → Ordering) (item : α) : List α → List α
  | [] => [item]
  | head :: rest =>
    if (compare item head).isLE then item :: head :: rest
    else head :: insert compare item rest

/-- The items in ascending order, equal ones as they came. -/
def sort (compare : α → α → Ordering) (items : List α) : List α :=
  items.foldr (insert compare) []

/-- The items without those that occurred before. -/
def distinct [DecidableEq α] : List α → List α
  | [] => []
  | item :: rest => item :: (distinct rest).filter (· ≠ item)

end Sorting

end Scaffold
