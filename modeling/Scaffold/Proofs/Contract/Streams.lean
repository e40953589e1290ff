import Mathlib.Data.List.Forall2
import Scaffold.Proofs.Contract.Distinct

/-!
# Regrouping undoes flattening

Contracts are flattened to a package, their names, and the names and lists of
their methods.  What captures repeat, and what has no meaning at its place, may
be inserted: the stream is still regrouped to the contracts it was made from.

A part of a stream is described by what holds before and after it, so that the
parts of a method, of a contract and of the whole stream are put together from
single captures.
-/

namespace Scaffold

open Go (Event Label)

/-! ## Streams -/

/-- The text of a list, which can be read. -/
structure ListText where
  text : Text
  entries : List Parameter
  reads : Signature.parse text = .ok entries

/-- A method with the texts of its lists. -/
structure WrittenMethod where
  name : Text
  parameters : ListText
  result? : Option ListText

namespace WrittenMethod

def results (written : WrittenMethod) : List Parameter :=
  (written.result?.map ListText.entries).getD []

def method (written : WrittenMethod) : Method where
  name := written.name
  parameters := written.parameters.entries
  results := written.results

/-- The captures behind the name. -/
def signature (written : WrittenMethod) : List Event :=
  ⟨.parameters, written.parameters.text⟩ ::
    written.result?.toList.map fun list => ⟨.result, list.text⟩

def flatten (written : WrittenMethod) : List Event :=
  ⟨.method, written.name⟩ :: written.signature

/-- What the method lacks of the written one is still to come. -/
structure Lacks (written : WrittenMethod) (pending : List Event) (method : Method) : Prop where
  name : method.name = written.name
  parameters : method.parameters = written.parameters.entries ∨
    ⟨.parameters, written.parameters.text⟩ ∈ pending
  results : method.results = written.results ∨
    ∃ list ∈ written.result?, ⟨.result, list.text⟩ ∈ pending

section Lacks

variable {written : WrittenMethod} {event : Event} {pending : List Event} {method : Method}

theorem mem_flatten : event ∈ written.flatten ↔ event = ⟨.method, written.name⟩ ∨
    event = ⟨.parameters, written.parameters.text⟩ ∨
      ∃ list ∈ written.result?, event = ⟨.result, list.text⟩ := by
  simp only [flatten, signature, List.mem_cons, List.mem_map, Option.mem_toList, Option.mem_def,
    eq_comm]

theorem Lacks.parameters_of_cons (lacks : written.Lacks (event :: pending) method)
    (other : event.label ≠ .parameters) :
    method.parameters = written.parameters.entries ∨
      ⟨.parameters, written.parameters.text⟩ ∈ pending := by
  refine lacks.parameters.imp_right fun member => ?_
  rcases List.mem_cons.mp member with rfl | later
  · exact absurd rfl other
  · exact later

theorem Lacks.results_of_cons (lacks : written.Lacks (event :: pending) method)
    (other : event.label ≠ .result) :
    method.results = written.results ∨
      ∃ list ∈ written.result?, ⟨.result, list.text⟩ ∈ pending := by
  refine lacks.results.imp_right fun ⟨list, known, member⟩ => ⟨list, known, ?_⟩
  rcases List.mem_cons.mp member with rfl | later
  · exact absurd rfl other
  · exact later

theorem Lacks.eq_method (lacks : written.Lacks [] method) : method = written.method := by
  obtain ⟨name, parameters, results⟩ := lacks
  cases method
  simp_all [WrittenMethod.method]

end Lacks

end WrittenMethod

/-- A contract with different methods. -/
structure WrittenContract where
  name : Text
  methods : List WrittenMethod
  different : (methods.map WrittenMethod.name).Nodup

namespace WrittenContract

def contract (written : WrittenContract) : Contract where
  name := written.name
  methods := written.methods.map WrittenMethod.method

def flatten (written : WrittenContract) : List Event :=
  ⟨.contract, written.name⟩ :: written.methods.flatMap WrittenMethod.flatten

end WrittenContract

namespace Regrouping

def flatten (package : Text) (contracts : List WrittenContract) : List Event :=
  ⟨.package, package⟩ :: contracts.flatMap WrittenContract.flatten

/-- A label that means nothing to contracts. -/
def IsUnknown (label : Label) : Prop :=
  label ∉ [Label.package, .contract, .method, .parameters, .result]

/-- Before the first contract only packages and contracts are not stray. -/
def IsStray (event : Event) : Prop :=
  event.label ≠ .package ∧ event.label ≠ .contract

/-- What may be inserted anywhere behind the name of a contract. -/
inductive IsAside (contract : Text) : Event → Prop where
  | contract : IsAside contract ⟨.contract, contract⟩
  | package (text : Text) : IsAside contract ⟨.package, text⟩
  | unknown {event : Event} (unknown : IsUnknown event.label) : IsAside contract event

/-- Captures of some kind are inserted into others. -/
inductive Inserts (extra : Event → Prop) : List Event → List Event → Prop where
  | nil : Inserts extra [] []
  | kept {event plain events} (rest : Inserts extra plain events) :
      Inserts extra (event :: plain) (event :: events)
  | inserted {event plain events} (fits : extra event) (rest : Inserts extra plain events) :
      Inserts extra plain (event :: events)

/-- The captures of a method and of what is inserted behind its name. -/
inductive MethodPart (contract : Text) (written : WrittenMethod) : List Event → Prop where
  | mk {rest} (inserts : Inserts (fun event => event ∈ written.flatten ∨ IsAside contract event)
      written.signature rest) : MethodPart contract written (⟨.method, written.name⟩ :: rest)

/-- The captures of a contract and of what is inserted behind its name. -/
inductive ContractPart (written : WrittenContract) : List Event → Prop where
  | mk {lead parts} (asides : ∀ event ∈ lead, IsAside written.name event)
      (methods : List.Forall₂ (MethodPart written.name) written.methods parts) :
      ContractPart written (⟨.contract, written.name⟩ :: (lead ++ parts.flatten))

/-- A flattened package with insertions. -/
inductive Stream (package : Text) (contracts : List WrittenContract) : List Event → Prop where
  | mk {before lead parts} (strays : ∀ event ∈ before, IsStray event)
      (ignored : ∀ event ∈ lead, IsStray event ∨ event.label = .package)
      (each : List.Forall₂ ContractPart contracts parts) :
      Stream package contracts (before ++ ⟨.package, package⟩ :: (lead ++ parts.flatten))

namespace Inserts

variable {extra : Event → Prop} {plain events : List Event}

theorem refl : ∀ plain, Inserts extra plain plain
  | [] => .nil
  | _ :: rest => .kept (refl rest)

theorem subset (inserts : Inserts extra plain events) : plain ⊆ events := by
  induction inserts with
  | nil => exact List.Subset.refl _
  | kept _ induction => exact List.cons_subset_cons _ induction
  | inserted _ _ induction => exact fun _ member => List.mem_cons_of_mem _ (induction member)

theorem mem_or_extra (inserts : Inserts extra plain events) {event : Event}
    (member : event ∈ events) : event ∈ plain ∨ extra event := by
  induction inserts with
  | nil => exact absurd member List.not_mem_nil
  | kept _ induction =>
      rcases List.mem_cons.mp member with rfl | later
      · exact .inl List.mem_cons_self
      · exact (induction later).imp_left (List.mem_cons_of_mem _)
  | inserted fits _ induction =>
      rcases List.mem_cons.mp member with rfl | later
      · exact .inr fits
      · exact induction later

end Inserts

theorem stream_flatten (package : Text) (contracts : List WrittenContract) :
    Stream package contracts (flatten package contracts) := by
  have methodParts (contract : Text) (methods : List WrittenMethod) :
      List.Forall₂ (MethodPart contract) methods (methods.map WrittenMethod.flatten) := by
    rw [List.forall₂_map_right_iff]
    exact List.forall₂_same.mpr fun written _ => .mk (.refl _)
  have contractParts : List.Forall₂ ContractPart contracts
      (contracts.map WrittenContract.flatten) := by
    rw [List.forall₂_map_right_iff]
    refine List.forall₂_same.mpr fun written _ => ?_
    rw [WrittenContract.flatten, List.flatMap_def]
    exact @ContractPart.mk written [] _ (by simp) (methodParts _ _)
  rw [flatten, List.flatMap_def]
  exact @Stream.mk package contracts [] [] _ (by simp) (by simp) contractParts

/-! ## Parts of a stream -/

/-- The captures lead from what holds before to what holds after. -/
def Leads (before : Regrouping → Prop) (events : List Event) (after : Regrouping → Prop) : Prop :=
  ∀ state, before state → ∃ next, state.continueWith events = .ok next ∧ after next

theorem continueWith_append {events : List Event} :
    ∀ {state middle : Regrouping}, state.continueWith events = .ok middle →
      ∀ rest, state.continueWith (events ++ rest) = middle.continueWith rest := by
  induction events with
  | nil =>
      intro state middle result rest
      rw [← Except.ok.inj result, List.nil_append]
  | cons event later induction =>
      intro state middle result rest
      rw [continueWith] at result
      rw [List.cons_append, continueWith]
      split at result
      · cases result
      · exact induction result rest

namespace Leads

variable {before middle after : Regrouping → Prop} {event : Event} {events rest : List Event}

theorem of_step
    (step : ∀ state, before state → ∃ next, state.step event = .ok next ∧ after next) :
    Leads before [event] after := by
  intro state holds
  obtain ⟨next, result, reached⟩ := step state holds
  exact ⟨next, by rw [continueWith, result]; rfl, reached⟩

theorem trans (first : Leads before events middle) (second : Leads middle rest after) :
    Leads before (events ++ rest) after := by
  intro state holds
  obtain ⟨next, result, between⟩ := first state holds
  obtain ⟨last, finish, reached⟩ := second next between
  exact ⟨last, (continueWith_append result rest).trans finish, reached⟩

theorem cons (first : Leads before [event] middle) (second : Leads middle rest after) :
    Leads before (event :: rest) after :=
  first.trans second

theorem refl : Leads before [] before :=
  fun state holds => ⟨state, rfl, holds⟩

theorem invariant (each : ∀ event ∈ events, Leads before [event] before) :
    Leads before events before := by
  induction events with
  | nil => exact refl
  | cons event rest induction =>
      obtain ⟨first, later⟩ := List.forall_mem_cons.mp each
      exact first.cons (induction later)

end Leads

/-! ## Captures -/

/-- The contracts are regrouped, and the last of them is open. -/
structure Shows (package? : Option Text) (contracts : List Contract) (state : Regrouping) :
    Prop where
  named : state.package? = package?
  regrouped : state.contracts = contracts
  opened : state.contract? = contracts.getLast?.map Contract.name

/-- The contracts are regrouped, and a method of the last one is open. -/
structure Describes (package : Text) (contracts : List Contract) (method : Text)
    (state : Regrouping) : Prop extends Shows (some package) contracts state where
  described : state.method? = some method

variable {package : Text} {package? : Option Text} {done : List Contract} {contract : Contract}
  {event : Event}

theorem leads_stray (stray : IsStray event) :
    Leads (Shows package? []) [event] (Shows package? []) := by
  apply Leads.of_step
  intro state shows
  refine ⟨state, ?_, shows⟩
  have closed : state.contract? = none := shows.opened
  rw [step, closed]
  obtain ⟨notPackage, notContract⟩ := stray
  split <;> simp_all

theorem leads_package (text : Text) :
    Leads (Shows package? done) [⟨.package, text⟩] (Shows (package?.or (some text)) done) := by
  apply Leads.of_step
  intro state shows
  exact ⟨_, rfl, congrArg (Option.or · (some text)) shows.named, shows.regrouped, shows.opened⟩

theorem step_aside {name : Text} (aside : IsAside name event) {state : Regrouping}
    (named : state.package? = some package) (opened : state.contract? = some name) :
    ∃ notices, state.step event = .ok { state with notices := notices } := by
  cases aside with
  | contract => exact ⟨state.notices, congrArg Except.ok (if_pos opened)⟩
  | package text =>
      have kept : state.package?.or (some text) = state.package? := by rw [named, Option.some_or]
      exact ⟨state.notices, by simp only [step, takePackage, kept]⟩
  | unknown unknown =>
      refine ⟨state.notices ++ [unhandledCapture event], ?_⟩
      obtain ⟨label, text⟩ := event
      simp only [IsUnknown, List.mem_cons, List.not_mem_nil, or_false] at unknown
      cases label <;> simp_all [step]

theorem opened_append {state : Regrouping}
    (shows : Shows package? (done ++ [contract]) state) :
    state.contract? = some contract.name := by
  simp [shows.opened]

theorem leads_aside (aside : IsAside contract.name event) :
    Leads (Shows (some package) (done ++ [contract])) [event]
      (Shows (some package) (done ++ [contract])) := by
  apply Leads.of_step
  intro state shows
  obtain ⟨notices, result⟩ := step_aside aside shows.named (opened_append shows)
  exact ⟨_, result, shows.named, shows.regrouped, shows.opened⟩

theorem leads_aside_described {method : Text} (aside : IsAside contract.name event) :
    Leads (Describes package (done ++ [contract]) method) [event]
      (Describes package (done ++ [contract]) method) := by
  apply Leads.of_step
  intro state describes
  obtain ⟨notices, result⟩ :=
    step_aside aside describes.named (opened_append describes.toShows)
  exact ⟨_, result, ⟨describes.named, describes.regrouped, describes.opened⟩, describes.described⟩

theorem leads_contract {name : Text} (new : name ∉ done.map Contract.name) :
    Leads (Shows package? done) [⟨.contract, name⟩]
      (Shows package? (done ++ [{ name := name }])) := by
  apply Leads.of_step
  intro state shows
  have closed : state.contract? ≠ some name := by
    intro opened
    rw [shows.opened, Option.map_eq_some_iff] at opened
    obtain ⟨last, found, same⟩ := opened
    exact new (List.mem_map.mpr ⟨last, List.mem_of_getLast? found, same⟩)
  have unknown : (state.contracts.find? fun contract => contract.name == name) = none := by
    rw [shows.regrouped, List.find?_eq_none]
    intro contract listed same
    exact new (List.mem_map.mpr ⟨contract, listed, beq_iff_eq.mp same⟩)
  refine ⟨_, rfl, ?_⟩
  rw [openContract, if_neg closed, unknown]
  exact ⟨shows.named, congrArg (· ++ _) shows.regrouped, by simp⟩

theorem map_if_append {α Key : Type} [DecidableEq Key] {key : α → Key} {change : α → α}
    {items : List α} {last : α} (new : key last ∉ items.map key) :
    ((items ++ [last]).map fun item => if key item = key last then change item else item) =
      items ++ [change last] := by
  have others : (items.map fun item => if key item = key last then change item else item) =
      items := by
    refine (List.map_congr_left fun item listed => if_neg fun same => ?_).trans (List.map_id items)
    exact new (List.mem_map.mpr ⟨item, listed, same⟩)
  rw [List.map_append, others, List.map_singleton, if_pos rfl]

theorem change_append {change : Contract → Contract} {name : Text} (last : contract.name = name)
    (new : name ∉ done.map Contract.name) :
    Contract.change name change (done ++ [contract]) = done ++ [change contract] := by
  subst last
  exact map_if_append new

/-- The contract with another method behind its own. -/
def adding (method : Method) (contract : Contract) : Contract :=
  { contract with methods := contract.methods ++ [method] }

@[simp] theorem name_adding (method : Method) (contract : Contract) :
    (adding method contract).name = contract.name :=
  rfl

section Methods

variable {method : Method} (newContract : contract.name ∉ done.map Contract.name)
  (newMethod : method.name ∉ contract.methodNames)

include newContract

theorem leads_method {name : Text} (new : name ∉ contract.methodNames) :
    Leads (Shows (some package) (done ++ [contract])) [⟨.method, name⟩]
      (Describes package (done ++ [adding { name := name } contract]) name) := by
  apply Leads.of_step
  intro state shows
  have opened := opened_append shows
  have declared : contract.declareMethod name = adding { name := name } contract := if_neg new
  refine ⟨state.openMethod contract.name name, by rw [step, opened], ?_⟩
  refine ⟨⟨shows.named, ?_, by simp [openMethod, opened, adding]⟩, rfl⟩
  rw [openMethod, shows.regrouped, change_append rfl newContract, declared]

theorem leads_method_again :
    Leads (Describes package (done ++ [adding method contract]) method.name)
      [⟨.method, method.name⟩]
      (Describes package (done ++ [adding method contract]) method.name) := by
  apply Leads.of_step
  intro state shows
  have opened := opened_append shows.toShows
  rw [name_adding] at opened
  have declared : (adding method contract).declareMethod method.name = adding method contract :=
    if_pos (by simp [adding, Contract.methodNames])
  refine ⟨state.openMethod contract.name method.name, by rw [step, opened], ?_⟩
  refine ⟨⟨shows.named, ?_, shows.opened⟩, rfl⟩
  dsimp only [openMethod]
  rw [shows.regrouped, change_append (name_adding method contract) newContract, declared]

include newMethod

/-- A list is read for the open method. -/
theorem leads_list (list : ListText) (assign : List Parameter → Method → Method)
    (reads : ∀ state : Regrouping, state.contract? = some contract.name →
      state.step event = state.readList contract.name list.text assign) :
    Leads (Describes package (done ++ [adding method contract]) method.name) [event]
      (Describes package (done ++ [adding (assign list.entries method) contract]) method.name) := by
  have changed : (adding method contract).changeMethod method.name (assign list.entries) =
      adding (assign list.entries method) contract := by
    rw [Contract.changeMethod, adding, map_if_append newMethod]
    rfl
  apply Leads.of_step
  intro state describes
  have opened := opened_append describes.toShows
  rw [name_adding] at opened
  refine ⟨state.describeMethod contract.name (assign list.entries), ?_, ?_⟩
  · rw [reads state opened, readList, describes.described, list.reads]
    rfl
  · rw [describeMethod, describes.described]
    refine ⟨⟨describes.named, ?_, by simp [opened]⟩, rfl⟩
    dsimp only
    rw [describes.regrouped, change_append (name_adding method contract) newContract, changed]

theorem leads_parameters (list : ListText) :
    Leads (Describes package (done ++ [adding method contract]) method.name)
      [⟨.parameters, list.text⟩]
      (Describes package (done ++ [adding { method with parameters := list.entries } contract])
        method.name) :=
  leads_list newContract newMethod list (fun entries method => { method with parameters := entries })
    fun state opened => by rw [step, opened]

theorem leads_result (list : ListText) :
    Leads (Describes package (done ++ [adding method contract]) method.name)
      [⟨.result, list.text⟩]
      (Describes package (done ++ [adding { method with results := list.entries } contract])
        method.name) :=
  leads_list newContract newMethod list (fun entries method => { method with results := entries })
    fun state opened => by rw [step, opened]

/-- A capture of a method's part describes it further, or changes nothing. -/
theorem leads_own {written : WrittenMethod} {pending : List Event}
    (own : event ∈ written.flatten ∨ IsAside contract.name event)
    (lacks : written.Lacks (event :: pending) method) :
    ∃ further : Method, written.Lacks pending further ∧
      Leads (Describes package (done ++ [adding method contract]) written.name) [event]
        (Describes package (done ++ [adding further contract]) written.name) := by
  have again (parameters : event.label ≠ .parameters) (results : event.label ≠ .result) :
      written.Lacks pending method :=
    ⟨lacks.name, lacks.parameters_of_cons parameters, lacks.results_of_cons results⟩
  rcases own with own | aside
  · rcases WrittenMethod.mem_flatten.mp own with rfl | rfl | ⟨list, known, rfl⟩
    · refine ⟨method, again (by simp) (by simp), ?_⟩
      rw [← lacks.name]
      exact leads_method_again newContract
    · refine ⟨{ method with parameters := written.parameters.entries },
        ⟨lacks.name, .inl rfl, lacks.results_of_cons (by simp)⟩, ?_⟩
      rw [← lacks.name]
      exact leads_parameters newContract newMethod written.parameters
    · refine ⟨{ method with results := list.entries },
        ⟨lacks.name, lacks.parameters_of_cons (by simp), .inl ?_⟩, ?_⟩
      · simp [WrittenMethod.results, Option.mem_def.mp known]
      · rw [← lacks.name]
        exact leads_result newContract newMethod list
  · have inside : IsAside (adding method contract).name event := aside
    refine ⟨method, ?_, leads_aside_described inside⟩
    cases aside with
    | contract => exact again (by simp) (by simp)
    | package text => exact again (by simp) (by simp)
    | unknown unknown =>
        apply again <;> intro same <;> simp [IsUnknown, same] at unknown

end Methods

/-! ## Runs -/

/-- What follows the name of a method completes it. -/
theorem leads_signature {written : WrittenMethod}
    (newContract : contract.name ∉ done.map Contract.name)
    (newMethod : written.name ∉ contract.methodNames) {rest : List Event} :
    ∀ {method : Method}, written.Lacks rest method →
      (∀ event ∈ rest, event ∈ written.flatten ∨ IsAside contract.name event) →
        Leads (Describes package (done ++ [adding method contract]) written.name) rest
          (Describes package (done ++ [adding written.method contract]) written.name) := by
  induction rest with
  | nil =>
      intro method lacks _
      rw [lacks.eq_method]
      exact Leads.refl
  | cons event rest induction =>
      intro method lacks own
      obtain ⟨first, later⟩ := List.forall_mem_cons.mp own
      obtain ⟨further, remaining, leads⟩ :=
        leads_own newContract (lacks.name ▸ newMethod) first lacks
      exact leads.cons (induction remaining later)

theorem leads_methodPart {written : WrittenMethod} {events : List Event}
    (part : MethodPart contract.name written events)
    (newContract : contract.name ∉ done.map Contract.name)
    (newMethod : written.name ∉ contract.methodNames) :
    Leads (Shows (some package) (done ++ [contract])) events
      (Shows (some package) (done ++ [adding written.method contract])) := by
  cases part with
  | @mk rest inserts =>
      have own : ∀ event ∈ rest, event ∈ written.flatten ∨ IsAside contract.name event :=
        fun event member => (inserts.mem_or_extra member).elim
          (fun plain => .inl (List.mem_cons_of_mem _ plain)) id
      have lacks : written.Lacks rest { name := written.name } := by
        refine ⟨rfl, .inr (inserts.subset List.mem_cons_self), ?_⟩
        cases result : written.result? with
        | none => exact .inl (by simp [WrittenMethod.results, result])
        | some list =>
            refine .inr ⟨list, rfl, inserts.subset (List.mem_cons_of_mem _ ?_)⟩
            simp [result]
      refine (leads_method newContract newMethod).cons fun state describes => ?_
      obtain ⟨next, result, last⟩ := leads_signature newContract newMethod lacks own state describes
      exact ⟨next, result, last.toShows⟩

/-- The parts of the methods fill the open contract. -/
theorem leads_methods {methods : List WrittenMethod} {parts : List (List Event)} {name : Text}
    (each : List.Forall₂ (MethodPart name) methods parts)
    (newContract : name ∉ done.map Contract.name) :
    ∀ {contract : Contract}, contract.name = name →
      (contract.methodNames ++ methods.map WrittenMethod.name).Nodup →
        Leads (Shows (some package) (done ++ [contract])) parts.flatten
          (Shows (some package) (done ++
            [{ contract with methods :=
                contract.methods ++ methods.map WrittenMethod.method }])) := by
  induction each with
  | nil =>
      intro contract named different
      simpa using Leads.refl
  | @cons written part methods parts first _ induction =>
      rintro contract rfl different
      have newMethod : written.name ∉ contract.methodNames := by
        rw [List.map_cons, List.nodup_append] at different
        exact fun old => different.2.2 _ old _ List.mem_cons_self rfl
      have remaining : ((adding written.method contract).methodNames ++
          methods.map WrittenMethod.name).Nodup := by
        simpa [adding, Contract.methodNames, WrittenMethod.method] using different
      refine (leads_methodPart first newContract newMethod).trans ?_
      simpa [adding] using induction (name_adding written.method contract) remaining

theorem leads_contractPart {written : WrittenContract} {events : List Event}
    (part : ContractPart written events) (new : written.name ∉ done.map Contract.name) :
    Leads (Shows (some package) done) events
      (Shows (some package) (done ++ [written.contract])) := by
  cases part with
  | @mk lead parts asides methods =>
      have opened : ({ name := written.name } : Contract).name = written.name := rfl
      refine (leads_contract new).cons (Leads.trans (Leads.invariant fun event member => ?_)
        (leads_methods methods new opened ?_))
      · exact leads_aside (asides event member)
      · exact written.different

/-- The parts of the contracts follow the contracts that are regrouped already. -/
theorem leads_contracts {contracts : List WrittenContract} {parts : List (List Event)}
    (each : List.Forall₂ ContractPart contracts parts) :
    ∀ {done : List Contract},
      (done.map Contract.name ++ contracts.map WrittenContract.name).Nodup →
        Leads (Shows (some package) done) parts.flatten
          (Shows (some package) (done ++ contracts.map WrittenContract.contract)) := by
  induction each with
  | nil =>
      intro done different
      simpa using Leads.refl
  | @cons written part contracts parts first _ induction =>
      intro done different
      have new : written.name ∉ done.map Contract.name := by
        rw [List.map_cons, List.nodup_append] at different
        exact fun old => different.2.2 _ old _ List.mem_cons_self rfl
      have remaining : ((done ++ [written.contract]).map Contract.name ++
          contracts.map WrittenContract.name).Nodup := by
        simpa [WrittenContract.contract] using different
      refine (leads_contractPart first new).trans ?_
      simpa using induction remaining

/-- A stream shows its package and its contracts. -/
theorem leads_stream {contracts : List WrittenContract} {events : List Event}
    (stream : Stream package contracts events)
    (different : (contracts.map WrittenContract.name).Nodup) :
    Leads (Shows none []) events
      (Shows (some package) (contracts.map WrittenContract.contract)) := by
  cases stream with
  | @mk before lead parts strays ignored each =>
      refine (Leads.invariant fun event member => leads_stray (strays event member)).trans
        ((leads_package package).cons (Leads.trans (Leads.invariant fun event member => ?_)
          (leads_contracts each different)))
      rcases ignored event member with stray | again
      · exact leads_stray stray
      · obtain ⟨label, text⟩ := event
        cases again
        exact leads_package text

/-- A flattened package with insertions is regrouped to the contracts it was made
from, and no stream is regrouped to contracts or methods that share a name. -/
theorem ofEvents_regroups :
    (∀ (package : Text) (contracts : List WrittenContract) (events : List Event),
      (contracts.map WrittenContract.name).Nodup → Stream package contracts events →
        ∃ state, ofEvents events = .ok state ∧ state.package? = some package ∧
          state.contracts = contracts.map WrittenContract.contract) ∧
      ∀ (events : List Event) (state : Regrouping), ofEvents events = .ok state →
        (state.contracts.map Contract.name).Nodup ∧
          ∀ contract ∈ state.contracts, contract.methodNames.Nodup := by
  constructor
  · intro package contracts events different stream
    obtain ⟨state, result, shows⟩ := leads_stream stream different {} ⟨rfl, rfl, rfl⟩
    exact ⟨state, result, shows.named, shows.regrouped⟩
  · intro events state result
    have distinct := isDistinct_ofEvents result
    exact ⟨distinct.contracts, distinct.methods⟩

/-- A method that takes a name and may fail. -/
def find : WrittenMethod where
  name := "Find"
  parameters := ⟨"(name string)", [⟨"name", "string"⟩], by rfl⟩
  result? := some ⟨"error", [⟨[], "error"⟩], by rfl⟩

/-- A method without results. -/
def purge : WrittenMethod where
  name := "Purge"
  parameters := ⟨"()", [], by rfl⟩
  result? := none

def users : WrittenContract where
  name := "UserRepository"
  methods := [find, purge]
  different := by decide

def carts : WrittenContract where
  name := "CartRepository"
  methods := [find]
  different := List.nodup_singleton _

/-- What stands behind the name of the first method. -/
def noisyRest : List Event :=
  [⟨.result, "error"⟩, ⟨.parameters, "(name string)"⟩, ⟨.contract, "UserRepository"⟩,
    ⟨.method, "Find"⟩, ⟨.result, "error"⟩, ⟨.other "surprise", "x"⟩]

/-- The captures of two contracts with a stray one, an unknown one, another package
and repeats of all that is open. -/
def noisy : List Event :=
  [⟨.method, "Stray"⟩, ⟨.package, "users"⟩, ⟨.result, "int"⟩, ⟨.contract, "UserRepository"⟩,
      ⟨.package, "others"⟩, ⟨.method, "Find"⟩] ++ noisyRest ++
    [⟨.method, "Purge"⟩, ⟨.parameters, "()"⟩, ⟨.method, "Purge"⟩,
      ⟨.contract, "CartRepository"⟩] ++ find.flatten

theorem stream_noisy : Stream "users" [users, carts] noisy := by
  have unknown : IsUnknown (.other "surprise") := by
    simp [IsUnknown]
  have first : Inserts (fun event => event ∈ find.flatten ∨ IsAside "UserRepository" event)
      find.signature noisyRest :=
    .inserted (.inl (by decide)) <| .kept <| .inserted (.inr .contract) <|
      .inserted (.inl (by decide)) <| .kept <| .inserted (.inr (.unknown unknown)) .nil
  have second : Inserts (fun event => event ∈ purge.flatten ∨ IsAside "UserRepository" event)
      purge.signature [⟨.parameters, "()"⟩, ⟨.method, "Purge"⟩] :=
    .kept <| .inserted (.inl (by decide)) .nil
  have own : ContractPart users (⟨.contract, "UserRepository"⟩ :: ([⟨.package, "others"⟩] ++
      [⟨.method, "Find"⟩ :: noisyRest, [⟨.method, "Purge"⟩, ⟨.parameters, "()"⟩,
        ⟨.method, "Purge"⟩]].flatten)) :=
    .mk (List.forall_mem_singleton.mpr (.package "others"))
      (.cons (.mk first) (.cons (.mk second) .nil))
  have other : ContractPart carts (⟨.contract, "CartRepository"⟩ :: ([] ++
      [⟨.method, "Find"⟩ :: find.signature].flatten)) :=
    .mk (by simp) (.cons (.mk (.refl _)) .nil)
  exact @Stream.mk "users" [users, carts] [⟨.method, "Stray"⟩] [⟨.result, "int"⟩] [_, _]
    (List.forall_mem_singleton.mpr ⟨by decide, by decide⟩)
    (List.forall_mem_singleton.mpr (.inl ⟨by decide, by decide⟩))
    (.cons own (.cons other .nil))

/-- Two contracts, one with two methods, come out of the noise. -/
theorem ofEvents_regroups_noisy :
    ([users, carts].map WrittenContract.name).Nodup ∧ Stream "users" [users, carts] noisy ∧
      ∃ state, ofEvents noisy = .ok state ∧ state.package? = some "users" ∧
        state.contracts = [users.contract, carts.contract] ∧
        (state.contracts.map Contract.name).Nodup ∧
        ∀ contract ∈ state.contracts, contract.methodNames.Nodup := by
  have different : ([users, carts].map WrittenContract.name).Nodup := by decide
  obtain ⟨state, result, named, regrouped⟩ :=
    ofEvents_regroups.1 "users" [users, carts] noisy different stream_noisy
  exact ⟨different, stream_noisy, state, result, named, regrouped,
    ofEvents_regroups.2 noisy state result⟩

end Regrouping

end Scaffold
