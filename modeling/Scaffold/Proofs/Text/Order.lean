import Scaffold.Text.Basic

/-!
# The order of texts

Texts are ordered character by character, so the order is total and only equal
texts compare as equal.
-/

namespace Scaffold

namespace Text

theorem order_eq_compareLex : order = List.compareLex (compareOn Char.toNat) := by
  funext left right
  induction left generalizing right with
  | nil => cases right <;> rfl
  | cons first lefts induction =>
      cases right with
      | nil => rfl
      | cons second rights =>
          rw [order, List.compareLex_cons_cons, compareOn, induction]
          cases compare first.toNat second.toNat <;> rfl

instance : Std.LawfulEqCmp (compareOn Char.toNat) where
  eq_of_compare same := Char.toNat_inj.mp (Std.LawfulEqCmp.eq_of_compare same)

instance : Std.TransCmp order :=
  order_eq_compareLex ▸ inferInstance

instance : Std.LawfulEqCmp order :=
  order_eq_compareLex ▸ inferInstance

end Text

end Scaffold
