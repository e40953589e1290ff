import Mathlib.Data.List.Nodup
import Scaffold.Proofs.Contract.Names

/-!
# Each contract once

A name that comes again reopens what it named before, so the contracts of a
stream have different names, and so have the methods of each of them.  This
holds within one file only: files are not compared with each other.
-/

namespace Scaffold

namespace Regrouping

open Go (Event)

/-- The contracts differ in their names, and each has methods that differ in
theirs. -/
structure IsDistinct (state : Regrouping) : Prop where
  contracts : (state.contracts.map Contract.name).Nodup
  methods : ∀ contract ∈ state.contracts, contract.methodNames.Nodup

theorem map_name_change {name : Text} {change : Contract → Contract}
    (keeps : ∀ contract, (change contract).name = contract.name) (contracts : List Contract) :
    (Contract.change name change contracts).map Contract.name = contracts.map Contract.name := by
  rw [Contract.change, List.map_map]
  apply List.map_congr_left
  intro contract _
  rw [Function.comp_apply]
  split
  · exact keeps contract
  · rfl

theorem isDistinct_change {state next : Regrouping} {name : Text} {change : Contract → Contract}
    (distinct : state.IsDistinct) (keeps : ∀ contract, (change contract).name = contract.name)
    (methods : ∀ contract, contract.methodNames.Nodup → (change contract).methodNames.Nodup)
    (changed : next.contracts = Contract.change name change state.contracts) :
    next.IsDistinct := by
  constructor
  · rw [changed, map_name_change keeps]
    exact distinct.contracts
  · intro contract member
    rw [changed] at member
    obtain ⟨before, known, rfl⟩ := List.mem_map.mp member
    split
    · exact methods before (distinct.methods before known)
    · exact distinct.methods before known

theorem nodup_declareMethod (name : Text) {contract : Contract}
    (nodup : contract.methodNames.Nodup) :
    (contract.declareMethod name).methodNames.Nodup := by
  unfold Contract.declareMethod
  split
  · exact nodup
  · rename_i absent
    rw [Contract.methodNames, List.map_append]
    exact List.Nodup.append nodup (List.nodup_singleton name)
      (List.disjoint_singleton.mpr absent)

theorem methodNames_changeMethod {name : Text} {change : Method → Method}
    (keeps : ∀ method, (change method).name = method.name) (contract : Contract) :
    (contract.changeMethod name change).methodNames = contract.methodNames := by
  rw [Contract.methodNames, Contract.changeMethod, List.map_map]
  apply List.map_congr_left
  intro method _
  rw [Function.comp_apply]
  split
  · exact keeps method
  · rfl

theorem isDistinct_openContract (name : Text) {state : Regrouping}
    (distinct : state.IsDistinct) : (state.openContract name).IsDistinct := by
  unfold openContract
  split
  · exact distinct
  · split
    · exact ⟨distinct.contracts, distinct.methods⟩
    · rename_i unknown
      have absent : name ∉ state.contracts.map Contract.name := by
        intro member
        obtain ⟨contract, known, same⟩ := List.mem_map.mp member
        exact List.find?_eq_none.mp unknown contract known (by simpa using same)
      constructor
      · rw [List.map_append]
        exact List.Nodup.append distinct.contracts (List.nodup_singleton name)
          (List.disjoint_singleton.mpr absent)
      · intro contract member
        rcases List.mem_append.mp member with old | new
        · exact distinct.methods contract old
        · rw [List.mem_singleton.mp new]
          exact List.nodup_nil

theorem isDistinct_readList {state next : Regrouping} {contract text : Text}
    {assign : List Parameter → Method → Method} (distinct : state.IsDistinct)
    (result : state.readList contract text assign = .ok next)
    (keeps : ∀ list method, (assign list method).name = method.name) : next.IsDistinct := by
  unfold readList at result
  split at result
  · rw [← Except.ok.inj result]
    exact distinct
  · split at result
    · simp at result
    · rename_i parameters _
      rw [← Except.ok.inj result]
      unfold describeMethod
      split
      · exact distinct
      · refine isDistinct_change distinct (fun contract => ?_) (fun contract nodup => ?_) rfl
        · rfl
        · rw [methodNames_changeMethod (keeps parameters)]
          exact nodup

theorem isDistinct_step {state next : Regrouping} {event : Event} (distinct : state.IsDistinct)
    (result : state.step event = .ok next) : next.IsDistinct := by
  unfold step at result
  split at result
  · rw [← Except.ok.inj result]
    exact ⟨distinct.contracts, distinct.methods⟩
  · rw [← Except.ok.inj result]
    exact isDistinct_openContract _ distinct
  · rw [← Except.ok.inj result]
    exact distinct
  · rw [← Except.ok.inj result]
    refine isDistinct_change distinct (fun contract => ?_)
      (fun contract => nodup_declareMethod event.text) rfl
    unfold Contract.declareMethod
    split <;> rfl
  · exact isDistinct_readList distinct result fun _ _ => rfl
  · exact isDistinct_readList distinct result fun _ _ => rfl
  · rw [← Except.ok.inj result]
    exact ⟨distinct.contracts, distinct.methods⟩

theorem isDistinct_continueWith (events : List Event) :
    ∀ {state last : Regrouping}, state.IsDistinct → state.continueWith events = .ok last →
      last.IsDistinct := by
  induction events with
  | nil =>
      intro state last distinct result
      rw [← Except.ok.inj result]
      exact distinct
  | cons event rest induction =>
      intro state last distinct result
      rw [continueWith] at result
      split at result
      · simp at result
      · rename_i next stepped
        exact induction (isDistinct_step distinct stepped) result

theorem isDistinct_ofEvents {events : List Event} {last : Regrouping}
    (result : ofEvents events = .ok last) : last.IsDistinct := by
  have nothing : ({} : Regrouping).IsDistinct :=
    ⟨List.nodup_nil, fun _ member => absurd member List.not_mem_nil⟩
  exact isDistinct_continueWith events nothing result

end Regrouping

namespace Contract

theorem isDistinct_ofSource {source : Bytes} {contracts : List Contract}
    (extracted : ofSource source = .ok contracts) :
    (contracts.map Contract.name).Nodup ∧ ∀ contract ∈ contracts, contract.methodNames.Nodup := by
  unfold ofSource at extracted
  split at extracted
  · simp at extracted
  · unfold ofFile at extracted
    split at extracted
    · simp at extracted
    · rename_i regrouping regrouped
      split at extracted
      · simp at extracted
      · have distinct := Regrouping.isDistinct_ofEvents regrouped
        rw [← Except.ok.inj extracted]
        constructor
        · rw [List.map_map]
          exact distinct.contracts
        · intro contract member
          obtain ⟨before, known, rfl⟩ := List.mem_map.mp member
          exact distinct.methods before known

end Contract

end Scaffold
