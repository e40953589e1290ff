import Mathlib.Data.List.Nodup
import Scaffold.Settings.Value

/-!
# Keys of configuration values

What is found under a key after entries were added or laid over others.  The
values of a configuration have each key once, in every mapping inside them.
-/

namespace Scaffold

namespace Value

theorem exists_of_isMapping {value : Value} (mapped : value.isMapping = true) :
    ∃ entries, value = mapping entries := by
  cases value with
  | mapping entries => exact ⟨entries, rfl⟩
  | _ => cases mapped

/-! ## Entries -/

theorem find?_cons (key : Key) (entry : Key × Value) (rest : List (Key × Value)) :
    find? key (entry :: rest) = if entry.1 = key then some entry.2 else find? key rest := by
  unfold find?
  rw [List.find?_cons]
  by_cases same : entry.1 = key
  · simp [same]
  · simp [beq_eq_false_iff_ne.mpr same, same]

theorem mem_of_find?_eq_some {key : Key} {value : Value} {entries : List (Key × Value)}
    (found : find? key entries = some value) : (key, value) ∈ entries := by
  obtain ⟨⟨other, _⟩, listed, rfl⟩ := Option.map_eq_some_iff.mp found
  obtain rfl : other = key := by simpa using List.find?_some listed
  exact List.mem_of_find?_eq_some listed

theorem find?_eq_none_iff {key : Key} {entries : List (Key × Value)} :
    find? key entries = none ↔ key ∉ entries.map Prod.fst := by
  induction entries with
  | nil => simp [find?]
  | cons entry rest induction =>
      rw [find?_cons, List.map_cons, List.mem_cons, not_or, ← induction]
      by_cases same : entry.1 = key
      · simp [same]
      · simp [same, Ne.symm same]

theorem find?_of_mem {key : Key} {value : Value} {entries : List (Key × Value)}
    (once : (entries.map Prod.fst).Nodup) (member : (key, value) ∈ entries) :
    find? key entries = some value := by
  induction entries with
  | nil => cases member
  | cons entry rest induction =>
      obtain ⟨new, once⟩ := List.nodup_cons.mp once
      rw [find?_cons]
      rcases List.mem_cons.mp member with rfl | later
      · exact if_pos rfl
      · rw [if_neg, induction once later]
        rintro rfl
        exact new (List.mem_map.mpr ⟨_, later, rfl⟩)

theorem find?_insert (key other : Key) (value : Value) (entries : List (Key × Value)) :
    find? other (insert key value entries) =
      if key = other then some value else find? other entries := by
  induction entries with
  | nil => exact find?_cons other (key, value) []
  | cons entry rest induction =>
      rw [insert]
      split
      · rename_i replaced
        rw [find?_cons, find?_cons, replaced]
        split <;> rfl
      · rename_i different
        rw [find?_cons, find?_cons, induction]
        by_cases here : entry.1 = other
        · rw [if_pos here, if_pos here, if_neg (fun same => different (here.trans same.symm))]
        · rw [if_neg here, if_neg here]

theorem keys_insert (key : Key) (value : Value) (entries : List (Key × Value)) :
    (insert key value entries).map Prod.fst =
      if key ∈ entries.map Prod.fst then entries.map Prod.fst
      else entries.map Prod.fst ++ [key] := by
  induction entries with
  | nil => rfl
  | cons entry rest induction =>
      rw [insert]
      split
      · rename_i replaced
        simp [replaced]
      · rename_i different
        rw [List.map_cons, induction, List.map_cons]
        by_cases later : key ∈ rest.map Prod.fst
        · rw [if_pos later, if_pos (List.mem_cons_of_mem entry.1 later)]
        · rw [if_neg later, if_neg (List.not_mem_cons_of_ne_of_not_mem (Ne.symm different) later)]
          rfl

theorem nodup_keys_insert {entries : List (Key × Value)} (once : (entries.map Prod.fst).Nodup)
    (key : Key) (value : Value) : ((insert key value entries).map Prod.fst).Nodup := by
  rw [keys_insert]
  split
  · exact once
  · rename_i new
    refine List.nodup_append.mpr ⟨once, List.nodup_singleton key, ?_⟩
    rintro old member last listed rfl
    exact new (List.mem_singleton.mp listed ▸ member)

theorem mem_insert {key : Key} {value : Value} {entries : List (Key × Value)}
    {entry : Key × Value} (member : entry ∈ insert key value entries) :
    entry = (key, value) ∨ entry ∈ entries := by
  induction entries with
  | nil => exact .inl (List.mem_singleton.mp member)
  | cons first rest induction =>
      rw [insert] at member
      split at member
      · exact (List.mem_cons.mp member).imp_right (List.mem_cons_of_mem first)
      · rcases List.mem_cons.mp member with rfl | later
        · exact .inr List.mem_cons_self
        · exact (induction later).imp_right (List.mem_cons_of_mem first)

/-! ## Each key once -/

mutual

/-- Every mapping inside the value has each key once. -/
def hasKeysOnce : Value → Bool
  | list items => itemsHaveKeysOnce items
  | mapping entries => decide (entries.map Prod.fst).Nodup && entriesHaveKeysOnce entries
  | _ => true

/-- Every mapping inside some items has each key once. -/
def itemsHaveKeysOnce : List Value → Bool
  | [] => true
  | item :: rest => item.hasKeysOnce && itemsHaveKeysOnce rest

/-- Every mapping inside the values of some entries has each key once. -/
def entriesHaveKeysOnce : List (Key × Value) → Bool
  | [] => true
  | (_, value) :: rest => value.hasKeysOnce && entriesHaveKeysOnce rest

end

theorem itemsHaveKeysOnce_iff {items : List Value} :
    itemsHaveKeysOnce items = true ↔ ∀ item ∈ items, item.hasKeysOnce = true := by
  induction items with
  | nil => simp [itemsHaveKeysOnce]
  | cons item rest induction => simp [itemsHaveKeysOnce, induction]

theorem entriesHaveKeysOnce_iff {entries : List (Key × Value)} :
    entriesHaveKeysOnce entries = true ↔ ∀ entry ∈ entries, entry.2.hasKeysOnce = true := by
  induction entries with
  | nil => simp [entriesHaveKeysOnce]
  | cons entry rest induction => simp [entriesHaveKeysOnce, induction]

theorem hasKeysOnce_list {items : List Value} :
    (list items).hasKeysOnce = true ↔ ∀ item ∈ items, item.hasKeysOnce = true := by
  rw [hasKeysOnce, itemsHaveKeysOnce_iff]

theorem hasKeysOnce_mapping {entries : List (Key × Value)} :
    (mapping entries).hasKeysOnce = true ↔
      (entries.map Prod.fst).Nodup ∧ ∀ entry ∈ entries, entry.2.hasKeysOnce = true := by
  rw [hasKeysOnce, Bool.and_eq_true, decide_eq_true_iff, entriesHaveKeysOnce_iff]

theorem hasKeysOnce_ofEntries {entries : List (Key × Value)}
    (inside : ∀ entry ∈ entries, entry.2.hasKeysOnce = true) :
    (ofEntries entries).hasKeysOnce = true := by
  have collected : ∀ known, (mapping known).hasKeysOnce = true →
      (mapping (entries.foldl (fun known entry => insert entry.1 entry.2 known)
        known)).hasKeysOnce = true := by
    induction entries with
    | nil => exact fun _ already => already
    | cons entry rest induction =>
        intro known already
        obtain ⟨first, later⟩ := List.forall_mem_cons.mp inside
        obtain ⟨once, values⟩ := hasKeysOnce_mapping.mp already
        refine induction later _ (hasKeysOnce_mapping.mpr ⟨nodup_keys_insert once _ _, ?_⟩)
        intro other member
        rcases mem_insert member with rfl | old
        · exact first
        · exact values other old
  exact collected [] (by decide)

/-! ## Entries over others -/

/-- What is found in entries that were laid over others: what the others have
with what is added laid over it. -/
theorem find?_mergeEntries (key : Key) (present : List (Key × Value))
    {added : List (Key × Value)} (once : (added.map Prod.fst).Nodup) :
    find? key (mergeEntries present added) =
      match find? key added with
      | some value => some (((find? key present).getD null).overlay value)
      | none => find? key present := by
  induction added generalizing present with
  | nil => rfl
  | cons entry rest induction =>
      obtain ⟨added, value⟩ := entry
      obtain ⟨new, once⟩ := List.nodup_cons.mp once
      rw [mergeEntries, induction _ once, find?_cons, find?_insert]
      by_cases same : added = key
      · subst same
        have later : find? added rest = none := find?_eq_none_iff.mpr new
        rw [later, if_pos rfl, if_pos rfl]
        cases find? added present with
        | none => cases value <;> rfl
        | some base => rfl
      · rw [if_neg same, if_neg same]

mutual

theorem hasKeysOnce_overlay : ∀ (base added : Value), base.hasKeysOnce = true →
    added.hasKeysOnce = true → (base.overlay added).hasKeysOnce = true
  | base, mapping added, baseOnce, once => by
      cases base with
      | mapping present =>
          exact hasKeysOnce_mergeEntries present added baseOnce (hasKeysOnce_mapping.mp once).2
      | _ => exact once
  | _, null, _, once | _, bool _, _, once | _, integer _, _, once | _, decimal .., _, once
  | _, scalar _, _, once | _, text _, _, once | _, list _, _, once => once

theorem hasKeysOnce_mergeEntries : ∀ (present added : List (Key × Value)),
    (mapping present).hasKeysOnce = true → (∀ entry ∈ added, entry.2.hasKeysOnce = true) →
    (mapping (mergeEntries present added)).hasKeysOnce = true
  | _, [], presentOnce, _ => presentOnce
  | present, (key, value) :: rest, presentOnce, values => by
      obtain ⟨first, later⟩ := List.forall_mem_cons.mp values
      obtain ⟨once, inside⟩ := hasKeysOnce_mapping.mp presentOnce
      rw [mergeEntries]
      refine hasKeysOnce_mergeEntries _ rest (hasKeysOnce_mapping.mpr
        ⟨nodup_keys_insert once _ _, fun entry member => ?_⟩) later
      rcases mem_insert member with rfl | old
      · dsimp only
        split
        · rename_i base found
          exact hasKeysOnce_overlay base value (inside _ (mem_of_find?_eq_some found)) first
        · exact first
      · exact inside entry old

end

end Value

end Scaffold
