import Mathlib.Data.List.Basic
import Scaffold.Sorting

/-!
# Sorting keeps the items

Sorting changes the order of items and nothing else.  Sorted items ascend, and
where only equal items compare as equal, their first order leaves no trace.
-/

namespace Scaffold

namespace Sorting

variable {α : Type} (compare : α → α → Ordering)

theorem insert_perm (item : α) (items : List α) :
    (insert compare item items).Perm (item :: items) := by
  induction items with
  | nil => exact List.Perm.refl _
  | cons head rest induction =>
      rw [insert]
      split
      · exact List.Perm.refl _
      · exact (List.Perm.cons head induction).trans (List.Perm.swap item head rest)

theorem sort_perm (items : List α) : (sort compare items).Perm items := by
  induction items with
  | nil => exact List.Perm.refl _
  | cons item rest induction =>
      exact (insert_perm compare item (sort compare rest)).trans (List.Perm.cons item induction)

@[simp] theorem mem_sort {item : α} {items : List α} :
    item ∈ sort compare items ↔ item ∈ items :=
  (sort_perm compare items).mem_iff

@[simp] theorem mem_distinct [DecidableEq α] {item : α} {items : List α} :
    item ∈ distinct items ↔ item ∈ items := by
  induction items with
  | nil => exact Iff.rfl
  | cons head rest induction =>
      rw [distinct, List.mem_cons, List.mem_filter, induction, List.mem_cons]
      by_cases same : item = head <;> simp [same]

theorem nodup_distinct [DecidableEq α] (items : List α) : (distinct items).Nodup := by
  induction items with
  | nil => exact List.nodup_nil
  | cons head rest induction =>
      rw [distinct, List.nodup_cons]
      constructor
      · simp
      · exact induction.filter _

/-- Items put together again by key are the items in another order. -/
theorem flatMap_filter_perm {Key : Type} [BEq Key] [LawfulBEq Key] (key : α → Key) {keys : List Key}
    (once : keys.Nodup) :
    ∀ {items : List α}, (∀ item ∈ items, key item ∈ keys) →
      (keys.flatMap fun wanted => items.filter fun item => key item == wanted).Perm items := by
  induction keys with
  | nil =>
      intro items covered
      have none : items = [] :=
        List.eq_nil_iff_forall_not_mem.mpr fun item member => List.not_mem_nil (covered item member)
      rw [none, List.flatMap_nil]
  | cons first rest induction =>
      intro items covered
      rw [List.nodup_cons] at once
      have others : ∀ wanted ∈ rest, (items.filter fun item => key item == wanted) =
          (items.filter fun item => !(key item == first)).filter fun item => key item == wanted := by
        intro wanted member
        rw [List.filter_filter]
        apply List.filter_congr
        intro item _
        by_cases same : key item = wanted
        · have different : wanted ≠ first := fun equal => once.1 (equal ▸ member)
          simp [same, different]
        · simp [same]
      have remaining : ∀ item ∈ items.filter fun item => !(key item == first), key item ∈ rest := by
        intro item member
        obtain ⟨listed, different⟩ := List.mem_filter.mp member
        exact (List.mem_cons.mp (covered item listed)).resolve_left (by simpa using different)
      rw [List.flatMap_cons, List.flatMap_congr others]
      exact (List.Perm.append_left _ (induction once.2 remaining)).trans
        (List.filter_append_perm _ items)

/-! ## Ascending items -/

section Ascending

variable [Std.TransCmp compare]

theorem pairwise_insert (item : α) {items : List α}
    (ascends : items.Pairwise fun left right => (compare left right).isLE = true) :
    (insert compare item items).Pairwise fun left right => (compare left right).isLE = true := by
  induction ascends with
  | nil => exact List.pairwise_singleton _ _
  | @cons head rest first ascends induction =>
      rw [insert]
      split
      · rename_i before
        refine .cons (List.forall_mem_cons.mpr ⟨before, ?_⟩) (.cons first ascends)
        exact fun later member => Std.TransCmp.isLE_trans before (first later member)
      · rename_i behind
        have swapped : compare head item = (compare item head).swap := Std.OrientedCmp.eq_swap
        have after : (compare head item).isLE = true := by
          rw [swapped]
          cases order : compare item head <;> simp_all
        refine .cons (fun later member => ?_) induction
        rcases List.mem_cons.mp ((insert_perm _ item rest).mem_iff.mp member) with rfl | old
        · exact after
        · exact first later old

theorem pairwise_sort (items : List α) :
    (sort compare items).Pairwise fun left right => (compare left right).isLE = true := by
  induction items with
  | nil => exact List.Pairwise.nil
  | cons item rest induction => exact pairwise_insert compare item induction

/-- Items among which only equal ones compare as equal are sorted in one way,
however they come. -/
theorem sort_eq_of_perm [Std.LawfulEqCmp compare] {items others : List α}
    (same : items.Perm others) : sort compare items = sort compare others := by
  refine List.Perm.eq_of_pairwise (fun left right _ _ first second => ?_)
    (pairwise_sort compare items) (pairwise_sort compare others)
    ((sort_perm compare items).trans (same.trans (sort_perm compare others).symm))
  exact Std.LawfulEqCmp.eq_of_compare (Std.OrientedCmp.isLE_antisymm first second)

theorem pairwise_lt_sort [Std.LawfulEqCmp compare] {items : List α} (once : items.Nodup) :
    (sort compare items).Pairwise fun left right => compare left right = .lt := by
  have different : (sort compare items).Nodup := (sort_perm compare items).nodup_iff.mpr once
  refine ((pairwise_sort compare items).and different).imp fun ⟨ascends, other⟩ => ?_
  have apart : compare _ _ ≠ .eq := fun same => other (Std.LawfulEqCmp.eq_of_compare same)
  cases order : compare _ _ with
  | lt => rfl
  | eq => exact absurd order apart
  | gt => simp [order] at ascends

end Ascending

theorem pairwise_sort_by (key : α → Nat) (items : List α) :
    (sort (fun left right => Ord.compare (key left) (key right)) items).Pairwise
      fun left right => key left ≤ key right := by
  have : Std.TransCmp fun left right => Ord.compare (key left) (key right) :=
    inferInstanceAs (Std.TransCmp (compareOn key))
  exact (pairwise_sort _ items).imp Nat.isLE_compare.mp

/-! ## Keys -/

variable {Key : Type} {order : Key → Key → Ordering} {key : α → Key}

theorem transCmp_of_key (order : Key → Key → Ordering) [Std.TransCmp order] (key : α → Key) :
    Std.TransCmp fun left right => order (key left) (key right) where
  eq_swap := Std.OrientedCmp.eq_swap
  isLE_trans := Std.TransCmp.isLE_trans

/-- Items that ascend strictly in a key are in the only order that does. -/
theorem eq_of_pairwise_lt (order : Key → Key → Ordering) [Std.TransCmp order] (key : α → Key)
    {items others : List α}
    (ascends : items.Pairwise fun left right => order (key left) (key right) = .lt)
    (also : others.Pairwise fun left right => order (key left) (key right) = .lt)
    (same : ∀ item, item ∈ items ↔ item ∈ others) : items = others := by
  have once {list : List α}
      (ascends : list.Pairwise fun left right => order (key left) (key right) = .lt) :
      list.Nodup := by
    refine ascends.imp fun {_ right} before equal => ?_
    have self : order (key right) (key right) = .eq := Std.ReflCmp.compare_self
    rw [equal, self] at before
    simp at before
  apply List.Perm.eq_of_pairwise _ ascends also
  · exact (List.perm_ext_iff_of_nodup (once ascends) (once also)).mpr same
  · intro left right _ _ before after
    exact absurd after (Std.OrientedCmp.not_lt_of_lt before)

theorem map_insert (same : ∀ left right, compare left right = order (key left) (key right))
    (item : α) (items : List α) :
    (insert compare item items).map key = insert order (key item) (items.map key) := by
  induction items with
  | nil => rfl
  | cons head rest induction =>
      rw [List.map_cons, insert, insert, same]
      split
      · rfl
      · rw [List.map_cons, induction]

theorem map_sort (same : ∀ left right, compare left right = order (key left) (key right))
    (items : List α) : (sort compare items).map key = sort order (items.map key) := by
  induction items with
  | nil => rfl
  | cons item rest induction =>
      exact (map_insert compare same item (sort compare rest)).trans (congrArg _ induction)

theorem distinct_perm [DecidableEq α] {items others : List α} (same : items.Perm others) :
    (distinct items).Perm (distinct others) := by
  rw [List.perm_ext_iff_of_nodup (nodup_distinct items) (nodup_distinct others)]
  intro item
  rw [mem_distinct, mem_distinct, same.mem_iff]

end Sorting

end Scaffold
