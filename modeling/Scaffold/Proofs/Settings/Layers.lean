import Scaffold.Proofs.Settings.Keys
import Scaffold.Settings.Basic

/-!
# Configurations in layers

A value inside a configuration stands at a path of keys.  Layers of configurations
are merged so that the last one that says something about a path decides what
stands there: a layer speaks about a path if it has a value there, or if a value
that is no mapping stands in the way.
-/

namespace Scaffold

namespace Value

/-! ## Paths of keys -/

/-- The value at a path of keys. -/
def at? : List Key → Value → Option Value
  | [], value => some value
  | key :: rest, mapping entries => (find? key entries).bind (at? rest)
  | _ :: _, _ => none

/-- A value that is no mapping stands on the way to the path. -/
def IsBlocked (path : List Key) (value : Value) : Prop :=
  ∃ front rest, path = front ++ rest ∧ rest ≠ [] ∧
    ∃ found, at? front value = some found ∧ found.isMapping = false

/-- Something stands at the path, or in its way. -/
def Decides (path : List Key) (value : Value) : Prop :=
  (∃ found, at? path value = some found) ∨ IsBlocked path value

theorem at?_cons_of_isMapping {value : Value} (other : value.isMapping = false) (key : Key)
    (rest : List Key) : at? (key :: rest) value = none := by
  cases value <;> first | rfl | cases other

theorem overlay_of_isMapping {value : Value} (other : value.isMapping = false) (base : Value) :
    base.overlay value = value := by
  cases value <;> first | rfl | cases other

theorem overlay_of_base {base : Value} (other : base.isMapping = false) (added : Value) :
    base.overlay added = added := by
  cases base <;> first | (cases added <;> rfl) | cases other

theorem isMapping_overlay {value : Value} (inner : value.isMapping = true) (base : Value) :
    (base.overlay value).isMapping = true := by
  cases value with
  | mapping entries => cases base <;> rfl
  | _ => cases inner

@[simp] theorem null_overlay (value : Value) : null.overlay value = value :=
  overlay_of_base rfl value

theorem isBlocked_cons_of_isMapping {value : Value} (other : value.isMapping = false) (key : Key)
    (rest : List Key) : IsBlocked (key :: rest) value :=
  ⟨[], key :: rest, rfl, List.cons_ne_nil key rest, value, rfl, other⟩

theorem not_isBlocked_nil (value : Value) : ¬ IsBlocked [] value := by
  rintro ⟨front, rest, whole, more, _⟩
  exact more (List.append_eq_nil_iff.mp whole.symm).2

theorem isBlocked_cons_mapping {key : Key} {rest : List Key} {entries : List (Key × Value)} :
    IsBlocked (key :: rest) (mapping entries) ↔
      ∃ value, find? key entries = some value ∧ IsBlocked rest value := by
  constructor
  · rintro ⟨front, last, whole, more, found, standing, other⟩
    cases front with
    | nil =>
        obtain rfl := Option.some.inj standing
        cases other
    | cons first front =>
        obtain ⟨rfl, rfl⟩ := List.cons.inj whole
        obtain ⟨value, listed, inside⟩ := Option.bind_eq_some_iff.mp standing
        exact ⟨value, listed, front, last, rfl, more, found, inside, other⟩
  · rintro ⟨value, listed, front, last, rfl, more, found, inside, other⟩
    exact ⟨key :: front, last, rfl, more, found,
      Option.bind_eq_some_iff.mpr ⟨value, listed, inside⟩, other⟩

/-! ## One value over another -/

theorem at?_cons (key : Key) (rest : List Key) (value : Value) :
    at? (key :: rest) value = (at? [key] value).bind (at? rest) := by
  cases value with
  | mapping entries =>
      show (find? key entries).bind (at? rest) = ((find? key entries).bind (at? [])).bind (at? rest)
      cases find? key entries <;> rfl
  | _ => rfl

/-- One key into a value that a mapping is laid over. -/
theorem at?_cons_overlay {entries : List (Key × Value)} (once : (entries.map Prod.fst).Nodup)
    (key : Key) (rest : List Key) (base : Value) :
    at? (key :: rest) (base.overlay (mapping entries)) =
      match find? key entries with
      | some value => at? rest (((at? [key] base).getD null).overlay value)
      | none => at? (key :: rest) base := by
  cases kind : base.isMapping with
  | false =>
      rw [overlay_of_base kind, at?_cons_of_isMapping kind, at?_cons_of_isMapping kind, at?]
      cases find? key entries with
      | none => rfl
      | some value => exact congrArg (at? rest) (null_overlay value).symm
  | true =>
      obtain ⟨present, rfl⟩ := exists_of_isMapping kind
      have single : at? [key] (mapping present) = find? key present := by
        rw [at?]
        cases find? key present <;> rfl
      rw [overlay, at?, find?_mergeEntries key present once, single]
      cases find? key entries <;> rfl

theorem hasKeysOnce_of_find? {entries : List (Key × Value)} {key : Key} {value : Value}
    (once : (mapping entries).hasKeysOnce = true) (found : find? key entries = some value) :
    value.hasKeysOnce = true :=
  (hasKeysOnce_mapping.mp once).2 _ (mem_of_find?_eq_some found)

theorem at?_overlay_of_found {path : List Key} {added value : Value}
    (once : added.hasKeysOnce = true) (found : at? path added = some value) (base : Value) :
    at? path (base.overlay added) = some (((at? path base).getD null).overlay value) := by
  induction path generalizing base added with
  | nil =>
      obtain rfl := Option.some.inj found
      rfl
  | cons key rest induction =>
      cases added with
      | mapping entries =>
          obtain ⟨inner, listed, inside⟩ := Option.bind_eq_some_iff.mp found
          rw [at?_cons_overlay (hasKeysOnce_mapping.mp once).1, listed]
          dsimp only
          rw [induction (hasKeysOnce_of_find? once listed) inside, at?_cons key rest base]
          cases at? [key] base with
          | none =>
              -- Nothing stands at any path in a value that is no mapping.
              cases rest <;> rfl
          | some inner => rfl
      | _ => cases found

theorem at?_overlay_of_isBlocked {path : List Key} {added : Value}
    (once : added.hasKeysOnce = true) (blocked : IsBlocked path added) (base : Value) :
    at? path (base.overlay added) = none := by
  induction path generalizing base added with
  | nil => exact absurd blocked (not_isBlocked_nil added)
  | cons key rest induction =>
      cases kind : added.isMapping with
      | false => rw [overlay_of_isMapping kind, at?_cons_of_isMapping kind]
      | true =>
          obtain ⟨entries, rfl⟩ := exists_of_isMapping kind
          obtain ⟨inner, listed, inside⟩ := isBlocked_cons_mapping.mp blocked
          rw [at?_cons_overlay (hasKeysOnce_mapping.mp once).1, listed]
          exact induction (hasKeysOnce_of_find? once listed) inside _

theorem at?_overlay_of_not_decides {path : List Key} {added : Value}
    (once : added.hasKeysOnce = true) (silent : ¬ Decides path added) (base : Value) :
    at? path (base.overlay added) = at? path base := by
  induction path generalizing base added with
  | nil => exact absurd (.inl ⟨added, rfl⟩) silent
  | cons key rest induction =>
      cases kind : added.isMapping with
      | false => exact absurd (.inr (isBlocked_cons_of_isMapping kind key rest)) silent
      | true =>
          obtain ⟨entries, rfl⟩ := exists_of_isMapping kind
          rw [at?_cons_overlay (hasKeysOnce_mapping.mp once).1]
          cases listed : find? key entries with
          | none => rfl
          | some inner =>
              have innerSilent : ¬ Decides rest inner := by
                rintro (⟨found, inside⟩ | blocked)
                · exact silent (.inl ⟨found, by rw [at?, listed]; exact inside⟩)
                · exact silent (.inr (isBlocked_cons_mapping.mpr ⟨inner, listed, blocked⟩))
              dsimp only
              rw [induction (hasKeysOnce_of_find? once listed) innerSilent, at?_cons key rest base]
              cases at? [key] base with
              | none =>
                  cases rest with
                  | nil => exact absurd (.inl ⟨inner, rfl⟩) innerSilent
                  | cons next others => rfl
              | some base => rfl

end Value

namespace Settings

open Value

/-! ## Layers -/

theorem merge_mappings (layers : List (List (Key × Value))) (present : List (Key × Value)) :
    ∃ merged, merge present (layers.map mapping) = .ok merged ∧
      mapping merged = (layers.map mapping).foldl overlay (mapping present) := by
  induction layers generalizing present with
  | nil => exact ⟨present, rfl, rfl⟩
  | cons layer rest induction =>
      obtain ⟨merged, result, laid⟩ := induction (mergeEntries present layer)
      refine ⟨merged, ?_, laid⟩
      rw [List.map_cons, merge]
      split
      · rename_i nothing
        obtain rfl : layer = [] := List.isEmpty_iff.mp nothing
        exact result
      · exact result

theorem at?_foldl_of_not_decides {path : List Key} {layers : List Value}
    (once : ∀ layer ∈ layers, layer.hasKeysOnce = true)
    (silent : ∀ layer ∈ layers, ¬ Decides path layer) (base : Value) :
    at? path (layers.foldl overlay base) = at? path base := by
  induction layers generalizing base with
  | nil => rfl
  | cons layer rest induction =>
      obtain ⟨first, later⟩ := List.forall_mem_cons.mp once
      obtain ⟨firstSilent, laterSilent⟩ := List.forall_mem_cons.mp silent
      rw [List.foldl_cons, induction later laterSilent,
        at?_overlay_of_not_decides first firstSilent]

/-- What a merged value has at a path if another one has the last say about it:
the same value or nothing, or else some mapping. -/
structure Follows (path : List Key) (last merged : Value) : Prop where
  plain : ∀ value, at? path last = some value → value.isMapping = false →
    at? path merged = some value
  blocked : IsBlocked path last → at? path merged = none
  inner : ∀ value, at? path last = some value → value.isMapping = true →
    ∃ kept, at? path merged = some kept ∧ kept.isMapping = true

theorem follows_overlay {added : Value} (once : added.hasKeysOnce = true) (path : List Key)
    (base : Value) : Follows path added (base.overlay added) where
  plain value found other := by
    rw [at?_overlay_of_found once found, overlay_of_isMapping other]
  blocked blocked := at?_overlay_of_isBlocked once blocked base
  inner value found inner := ⟨_, at?_overlay_of_found once found base, isMapping_overlay inner _⟩

/-- The last layer that decides a path says what the merged configuration has
there. -/
theorem merge_follows {layers : List (List (Key × Value))}
    (once : ∀ layer ∈ layers, (mapping layer).hasKeysOnce = true) {path : List Key}
    (beyond : path ≠ []) :
    ∃ merged, merge [] (layers.map mapping) = .ok merged ∧
      ((∀ layer ∈ layers, ¬ Decides path (mapping layer)) →
        at? path (mapping merged) = none) ∧
      ∀ before last after, layers = before ++ last :: after → Decides path (mapping last) →
        (∀ later ∈ after, ¬ Decides path (mapping later)) →
        Follows path (mapping last) (mapping merged) := by
  obtain ⟨merged, result, laid⟩ := merge_mappings layers []
  have empty : at? path (mapping []) = none := by
    cases path with
    | nil => exact absurd rfl beyond
    | cons key rest => rfl
  refine ⟨merged, result, fun silent => ?_, ?_⟩
  · rw [laid, at?_foldl_of_not_decides (by simpa using once) (by simpa using silent), empty]
  rintro before last after rfl _ silent
  obtain ⟨_, lastOnce, afterOnce⟩ : _ ∧ _ ∧ ∀ later ∈ after, _ := by
    simpa only [List.forall_mem_append, List.forall_mem_cons] using once
  have reached : at? path (mapping merged) =
      at? path (((before.map mapping).foldl overlay (mapping [])).overlay (mapping last)) := by
    rw [laid, List.map_append, List.map_cons, List.foldl_append, List.foldl_cons,
      at?_foldl_of_not_decides (by simpa using afterOnce) (by simpa using silent)]
  have followed := follows_overlay lastOnce path ((before.map mapping).foldl overlay (mapping []))
  constructor
  · exact fun value found other => reached.trans (followed.plain value found other)
  · exact fun blocked => reached.trans (followed.blocked blocked)
  · intro value found inner
    rw [reached]
    exact followed.inner value found inner

/-- Layers in which a number comes between two mappings, and then an empty one. -/
def interrupted : List (List (Key × Value)) :=
  [[(.name "a", .ofNamed [("b", .ofNamed [("c", .integer 1)])])],
    [(.name "a", .integer 2)],
    [(.name "a", .ofNamed [("b", .ofNamed [("d", .integer 3)])]), (.name "e", .null)],
    [(.name "a", .mapping [])]]

theorem merge_follows_interrupted :
    (∀ layer ∈ interrupted, (mapping layer).hasKeysOnce = true) ∧
      [Key.name "a", Key.name "b", Key.name "c"] ≠ [] ∧
      ∃ merged, merge [] (interrupted.map mapping) = .ok merged ∧
        ((∀ layer ∈ interrupted, ¬ Decides [.name "a", .name "b", .name "c"] (mapping layer)) →
          at? [.name "a", .name "b", .name "c"] (mapping merged) = none) ∧
        ∀ before last after, interrupted = before ++ last :: after →
          Decides [.name "a", .name "b", .name "c"] (mapping last) →
          (∀ later ∈ after, ¬ Decides [.name "a", .name "b", .name "c"] (mapping later)) →
          Follows [.name "a", .name "b", .name "c"] (mapping last) (mapping merged) := by
  have once : ∀ layer ∈ interrupted, (mapping layer).hasKeysOnce = true := by decide
  have beyond : [Key.name "a", Key.name "b", Key.name "c"] ≠ [] := List.cons_ne_nil _ _
  exact ⟨once, beyond, merge_follows once beyond⟩

end Settings

end Scaffold
