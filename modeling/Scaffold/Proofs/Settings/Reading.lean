import Scaffold.Proofs.Settings.Keys
import Scaffold.Settings.Load

/-!
# Values that are read have each key once

Whatever a configuration file holds, its value has each key once in every mapping:
both formats collect the entries of a mapping by their keys.  In YAML this covers
entries that are merged in, which come from mappings that were collected before.
-/

namespace Scaffold

open Value (hasKeysOnce hasKeysOnce_list hasKeysOnce_mapping hasKeysOnce_ofEntries)

namespace Json

theorem all_number (text : Text) :
    (number text).all (fun found => found.1.hasKeysOnce) = true := by
  unfold number
  extract_lets sign unsigned whole afterWhole fraction power rest magnitude places
  split
  · rfl
  · split <;> rfl

theorem hasKeysOnce_constant {text : Text} {found : Value × Text}
    (read : constant text = some found) : found.1.hasKeysOnce = true := by
  obtain ⟨entry, listed, rfl⟩ := Option.map_eq_some_iff.mp read
  have all : ∀ entry ∈ constants, entry.2.hasKeysOnce = true := by decide
  exact all entry (List.mem_of_find?_eq_some listed)

/-- On some fuel the readers return values that have each key once. -/
structure ReadsKeysOnce (fuel : Nat) : Prop where
  value : ∀ text found, value fuel text = some found → found.1.hasKeysOnce = true
  list : ∀ text found, listRest fuel text = some found →
    ∀ item ∈ found.1, item.hasKeysOnce = true
  mapping : ∀ text found, mappingRest fuel text = some found →
    ∀ entry ∈ found.1, entry.2.hasKeysOnce = true

section Readers

variable {fuel : Nat} (less : ReadsKeysOnce fuel) {text : Text}
include less

theorem hasKeysOnce_value_succ {found : Value × Text}
    (read : value (fuel + 1) text = some found) : found.1.hasKeysOnce = true := by
  unfold value at read
  split at read
  · cases read
  · obtain ⟨_, _, rfl⟩ := Option.map_eq_some_iff.mp read
    rfl
  · split at read
    · cases read
      rfl
    · obtain ⟨items, inside, rfl⟩ := Option.map_eq_some_iff.mp read
      exact hasKeysOnce_list.mpr (less.list _ items inside)
  · split at read
    · cases read
      rfl
    · obtain ⟨entries, inside, rfl⟩ := Option.map_eq_some_iff.mp read
      exact hasKeysOnce_ofEntries (less.mapping _ entries inside)
  · split at read
    · rename_i word
      cases read
      exact hasKeysOnce_constant word
    · exact (Option.all_eq_true _ _).mp (all_number _) _ read

theorem hasKeysOnce_listRest_succ {found : List Value × Text}
    (read : listRest (fuel + 1) text = some found) :
    ∀ item ∈ found.1, item.hasKeysOnce = true := by
  unfold listRest at read
  split at read
  · cases read
  · rename_i first
    have head := less.value _ _ first
    split at read
    · cases read
      exact List.forall_mem_singleton.mpr head
    · obtain ⟨others, later, rfl⟩ := Option.map_eq_some_iff.mp read
      exact List.forall_mem_cons.mpr ⟨head, less.list _ others later⟩
    · cases read

theorem hasKeysOnce_mappingRest_succ {found : List (Key × Value) × Text}
    (read : mappingRest (fuel + 1) text = some found) :
    ∀ entry ∈ found.1, entry.2.hasKeysOnce = true := by
  unfold mappingRest at read
  split at read
  · split at read
    · cases read
    · split at read
      · split at read
        · cases read
        · rename_i first
          have head := less.value _ _ first
          split at read
          · cases read
            exact List.forall_mem_singleton.mpr head
          · obtain ⟨others, later, rfl⟩ := Option.map_eq_some_iff.mp read
            exact List.forall_mem_cons.mpr ⟨head, less.mapping _ others later⟩
          · cases read
      · cases read
  · cases read

end Readers

theorem readsKeysOnce (fuel : Nat) : ReadsKeysOnce fuel := by
  induction fuel with
  | zero => exact ⟨nofun, nofun, nofun⟩
  | succ fuel less =>
      exact ⟨fun _ _ => hasKeysOnce_value_succ less, fun _ _ => hasKeysOnce_listRest_succ less,
        fun _ _ => hasKeysOnce_mappingRest_succ less⟩

theorem hasKeysOnce_read? {text : Text} {found : Value} (read : read? text = some found) :
    found.hasKeysOnce = true := by
  unfold read? at read
  split at read
  · cases read
  · rename_i whole
    split at read
    · cases read
      exact (readsKeysOnce _).value _ _ whole
    · cases read

end Json

namespace Yaml

/-! ## Scalars -/

theorem all_pointed? (isNegative : Bool) (whole : Nat) (text : Text) :
    (pointed? isNegative whole text).all hasKeysOnce = true := by
  unfold pointed?
  dsimp only
  cases signedExponent? _ <;> rfl

theorem all_integer? (text : Text) : (integer? text).all hasKeysOnce = true := by
  unfold integer?
  dsimp only
  cases magnitude? _ <;> rfl

theorem all_decimal? (text : Text) : (decimal? text).all hasKeysOnce = true := by
  unfold decimal?
  dsimp only
  repeat' split
  all_goals first | rfl | exact all_pointed? _ _ _

theorem all_plainValue? (text : Text) : (plainValue? text).all hasKeysOnce = true := by
  have decimals := all_decimal? text
  have integers := all_integer? text
  unfold plainValue?
  repeat' split
  all_goals first | rfl | simp_all

theorem all_taggedScalar? (tag text : Text) : (taggedScalar? tag text).all hasKeysOnce = true := by
  have decimals := all_decimal? text
  have integers := all_integer? text
  have plains := all_plainValue? text
  unfold taggedScalar?
  repeat' split
  all_goals first | rfl | assumption | simp_all

theorem all_scalarValue? (tag? : Option Text) (text : Text) (isPlain : Bool) :
    (scalarValue? tag? text isPlain).all hasKeysOnce = true := by
  unfold scalarValue?
  split
  · exact all_taggedScalar? _ text
  · split
    · exact all_plainValue? text
    · rfl

/-! ## Nodes -/

theorem hasKeysOnce_entriesOf? {value : Value} {entries : List (Key × Value)}
    (once : value.hasKeysOnce = true) (found : entriesOf? value = some entries) :
    ∀ entry ∈ entries, entry.2.hasKeysOnce = true := by
  cases value with
  | mapping own =>
      cases found
      exact (hasKeysOnce_mapping.mp once).2
  | _ => cases found

theorem exists_of_mapM {items : List Value} {several : List (List (Key × Value))}
    (each : items.mapM entriesOf? = some several) :
    ∀ own ∈ several, ∃ item ∈ items, entriesOf? item = some own := by
  induction items generalizing several with
  | nil =>
      cases each
      exact fun own member => absurd member List.not_mem_nil
  | cons item rest induction =>
      rw [List.mapM_cons] at each
      obtain ⟨first, given, each⟩ := Option.bind_eq_some_iff.mp each
      obtain ⟨others, later, each⟩ := Option.bind_eq_some_iff.mp each
      cases each
      refine List.forall_mem_cons.mpr ⟨⟨item, List.mem_cons_self, given⟩, fun own member => ?_⟩
      obtain ⟨other, listed, found⟩ := induction later own member
      exact ⟨other, List.mem_cons_of_mem item listed, found⟩

theorem hasKeysOnce_mergedEntries? {value : Value} {entries : List (Key × Value)}
    (once : value.hasKeysOnce = true) (found : mergedEntries? value = some entries) :
    ∀ entry ∈ entries, entry.2.hasKeysOnce = true := by
  unfold mergedEntries? at found
  split at found
  · rename_i items
    obtain ⟨several, each, rfl⟩ := Option.map_eq_some_iff.mp found
    intro entry member
    obtain ⟨own, listed, inside⟩ := List.mem_flatten.mp member
    obtain ⟨item, itemListed, given⟩ := exists_of_mapM each own listed
    exact hasKeysOnce_entriesOf? (hasKeysOnce_list.mp once item (List.mem_reverse.mp itemListed))
      given entry inside
  · exact hasKeysOnce_entriesOf? once found

mutual

theorem hasKeysOnce_value? : ∀ (node : Node) (value : Value), node.value? = some value →
    value.hasKeysOnce = true
  | .scalar tag? text isPlain, value, found => by
      have scalars := all_scalarValue? tag? text isPlain
      rw [Node.value?] at found
      rwa [found] at scalars
  | .sequence tag? items, value, found => by
      rw [Node.value?] at found
      split at found
      · obtain ⟨values, inside, rfl⟩ := Option.map_eq_some_iff.mp found
        exact hasKeysOnce_list.mpr (hasKeysOnce_itemValues? items values inside)
      · cases found
  | .mapping tag? entries, value, found => by
      rw [Node.value?] at found
      split at found
      · obtain ⟨values, inside, rfl⟩ := Option.map_eq_some_iff.mp found
        obtain ⟨merged, own⟩ := hasKeysOnce_entryValues? entries values inside
        exact hasKeysOnce_ofEntries (List.forall_mem_append.mpr ⟨merged, own⟩)
      · cases found

theorem hasKeysOnce_itemValues? : ∀ (items : List Node) (values : List Value),
    itemValues? items = some values → ∀ value ∈ values, value.hasKeysOnce = true
  | [], values, found => by
      cases found
      exact fun value member => absurd member List.not_mem_nil
  | item :: rest, values, found => by
      rw [itemValues?] at found
      split at found
      · rename_i first others head tail
        cases found
        exact List.forall_mem_cons.mpr
          ⟨hasKeysOnce_value? item first head, hasKeysOnce_itemValues? rest others tail⟩
      · cases found

/-- What is merged in comes from values, too. -/
theorem hasKeysOnce_entryValues? : ∀ (pairs : List (Node × Node)) (found : Entries),
    entryValues? pairs = some found →
      (∀ entry ∈ found.merged, entry.2.hasKeysOnce = true) ∧
        ∀ entry ∈ found.own, entry.2.hasKeysOnce = true
  | [], found, read => by
      cases read
      exact ⟨fun _ member => absurd member List.not_mem_nil,
        fun _ member => absurd member List.not_mem_nil⟩
  | (key, item) :: rest, found, read => by
      rw [entryValues?] at read
      split at read
      · rename_i value others head tail
        have first := hasKeysOnce_value? item value head
        obtain ⟨merged, own⟩ := hasKeysOnce_entryValues? rest others tail
        split at read
        · obtain ⟨entries, inside, rfl⟩ := Option.map_eq_some_iff.mp read
          exact ⟨List.forall_mem_append.mpr ⟨hasKeysOnce_mergedEntries? first inside, merged⟩, own⟩
        · dsimp only at read
          split at read
          · cases read
            exact ⟨merged, List.forall_mem_cons.mpr ⟨first, own⟩⟩
          · cases read
      · cases read

end

theorem hasKeysOnce_read? {text : Text} {found : Value} (read : read? text = some found) :
    found.hasKeysOnce = true := by
  unfold read? at read
  split at read
  · cases read
  · split at read
    · cases read
    · cases read
      rfl
    · exact hasKeysOnce_value? _ found read

end Yaml

namespace Settings

theorem hasKeysOnce_decode? {path text : Text} {found : Value}
    (decoded : decode? path text = some found) : found.hasKeysOnce = true := by
  unfold decode? at decoded
  split at decoded
  · obtain ⟨value, read, rfl⟩ := Option.map_eq_some_iff.mp decoded
    split
    · rfl
    · exact Yaml.hasKeysOnce_read? read
  · exact Json.hasKeysOnce_read? decoded

theorem hasKeysOnce_loadFile {disk : Disk} {current path : Text} {entries : List (Key × Value)}
    (loaded : loadFile disk current path = .ok entries) :
    (Value.mapping entries).hasKeysOnce = true := by
  unfold loadFile at loaded
  split at loaded
  · cases loaded
  · split at loaded
    · cases loaded
    · split at loaded
      · cases loaded
      · split at loaded
        · cases loaded
        · rename_i decoded
          cases loaded
          exact hasKeysOnce_decode? decoded
        · cases loaded

end Settings

end Scaffold
