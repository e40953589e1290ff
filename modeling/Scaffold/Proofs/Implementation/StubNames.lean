import Scaffold.Proofs.Implementation.Naming

/-!
# Names in the signature of a stub

The parameters, the results, the receiver and the span of a stub are named in this
order, each list with the names before it reserved.  Only a result that keeps its
name is not compared with the parameters, so its name comes twice where a context or
an error among the parameters has been given it.
-/

namespace Scaffold

open Naming (bindings generatedNames isGenerated keptNames mem_bindings_normalize_iff)

namespace StubNames

/-- The names that a stub declares: those of parameters, results and receiver, and
that of a span if there is one. -/
def declared (names : StubNames) (traced : Bool) : List Text :=
  bindings names.parameters ++ bindings names.results ++
    names.receiver :: if traced then [names.span] else []

variable (method : Method)

/-- The names of the results are different from those of the parameters unless a kept
one is the name of a context or an error. -/
theorem disjoint_bindings_iff
    (apart : (keptNames method.parameters).Disjoint (keptNames method.results)) :
    (bindings (ofMethod method).parameters).Disjoint (bindings (ofMethod method).results) ↔
      (generatedNames (ofMethod method).parameters).Disjoint (keptNames method.results) := by
  constructor
  · intro disjoint name generated kept
    exact disjoint (mem_bindings_normalize_iff.mpr (.inr generated))
      (mem_bindings_normalize_iff.mpr (.inl kept))
  · intro disjoint name given returned
    -- Names of results are chosen with those of parameters reserved, kept ones are not.
    rcases mem_bindings_normalize_iff.mp returned with kept | generated
    · rcases mem_bindings_normalize_iff.mp given with own | generated
      · exact apart own kept
      · exact disjoint generated kept
    · exact Naming.not_mem_of_mem_generatedNames generated
        (Naming.bindings_subset_names _ given)

theorem bindings_subset_names :
    bindings (ofMethod method).parameters ++ bindings (ofMethod method).results ⊆
      Naming.names (ofMethod method).parameters ++ Naming.names (ofMethod method).results := by
  intro name member
  have within (parameters : List Parameter) := Naming.bindings_subset_names parameters
  exact List.mem_append.mpr ((List.mem_append.mp member).imp (within _ ·) (within _ ·))

theorem receiver_not_mem :
    (ofMethod method).receiver ∉
      bindings (ofMethod method).parameters ++ bindings (ofMethod method).results :=
  fun member => FreshName.choose_not_mem receiverName _ (bindings_subset_names method member)

theorem span_not_mem :
    (ofMethod method).span ∉ (bindings (ofMethod method).parameters ++
      bindings (ofMethod method).results) ++ [(ofMethod method).receiver] := by
  intro member
  have used := (List.mem_append.mp member).imp_left (bindings_subset_names method ·)
  exact FreshName.choose_not_mem spanName _ (List.mem_append.mpr used)

theorem nodup_declared_iff_signature (traced : Bool) :
    ((ofMethod method).declared traced).Nodup ↔
      (bindings (ofMethod method).parameters ++ bindings (ofMethod method).results).Nodup := by
  have receiver := receiver_not_mem method
  have span := span_not_mem method
  rw [declared]
  generalize bindings (ofMethod method).parameters ++ bindings (ofMethod method).results = names
    at receiver span ⊢
  have different : (ofMethod method).span ≠ (ofMethod method).receiver :=
    fun same => span (List.mem_append_right _ (same ▸ List.mem_singleton_self _))
  have apart : (ofMethod method).span ∉ names := fun again => span (List.mem_append_left _ again)
  constructor
  · exact fun distinct => distinct.sublist (List.sublist_append_left _ _)
  · intro distinct
    cases traced with
    | false =>
        refine distinct.append (List.nodup_singleton _) fun name member again => ?_
        have same : name = (ofMethod method).receiver := by simpa using again
        exact receiver (same ▸ member)
    | true =>
        refine distinct.append (by simpa using different.symm) fun name member again => ?_
        rcases List.mem_pair.mp again with rfl | rfl
        · exact receiver member
        · exact apart member

theorem nodup_signature_iff
    (distinct : (bindings method.parameters ++ bindings method.results).Nodup) :
    (bindings (ofMethod method).parameters ++ bindings (ofMethod method).results).Nodup ↔
      (generatedNames (ofMethod method).parameters).Disjoint (keptNames method.results) := by
  obtain ⟨given, returned, apart⟩ := List.nodup_append'.mp distinct
  have kept (parameters : List Parameter) := Naming.keptNames_sublist_bindings parameters
  rw [List.nodup_append', ← disjoint_bindings_iff method fun name own other =>
    apart ((kept _).subset own) ((kept _).subset other)]
  exact ⟨fun parts => parts.2.2, fun disjoint =>
    ⟨Naming.nodup_bindings_normalize (given.sublist (kept _)),
      Naming.nodup_bindings_normalize (returned.sublist (kept _)), disjoint⟩⟩

end StubNames

/-! ## Names in the text -/

namespace Stub

variable (contract : Contract) (method : Method)

/-- The line that starts a span of a context. -/
def startLine (context span : Text) : Text :=
  "\t" ++ context ++ ", " ++ span ++ " := otel.GetTracerProvider().Tracer(\"" ++
    contract.packageName ++ "\").Start(" ++ context ++ ", \"" ++ contract.shortName ++ "." ++
    method.name ++ "\")"

/-- The line that wraps an error. -/
def wrapLine (error : Text) : Text :=
  "\t\t\t" ++ error ++ " = eris.Wrap(" ++ error ++ ", \"" ++ label contract method ++ "\")"

/-- The lines of a body start the span from the first context among the parameters and
wrap the first error among the results. -/
structure Refers (names : StubNames) (lines : List Text) : Prop where
  start : method.hasContext = true → ∃ context,
    names.parameters.find? Parameter.isContext = some context ∧
      startLine contract method context.name names.span ∈ lines
  wrap : method.returnsError = true → ∃ error,
    names.results.find? Parameter.isError = some error ∧
      wrapLine contract method error.name ∈ lines

theorem exists_find?_normalize (reserved : List Text) (parameters : List Parameter) (type : Text)
    (present : (parameters.any fun parameter => parameter.type == type) = true) :
    ∃ entry, (Naming.normalize reserved parameters).find?
      (fun parameter => parameter.type == type) = some entry := by
  rw [← Naming.any_type_normalize reserved parameters (· == type), List.any_eq_true] at present
  obtain ⟨parameter, member, matching⟩ := present
  exact Option.isSome_iff_exists.mp (List.find?_isSome.mpr ⟨parameter, member, matching⟩)

theorem refers_handling (others : List Text) :
    Refers contract method (StubNames.ofMethod method)
      (handling contract method (StubNames.ofMethod method) ++ others) where
  start traced := by
    obtain ⟨context, found⟩ :=
      exists_find?_normalize [] method.parameters Parameter.contextType traced
    have named : (StubNames.ofMethod method).context = context.name :=
      congrArg (fun entry => (entry.map Parameter.name).getD Naming.contextName) found
    refine ⟨context, found, List.mem_append_left _ ?_⟩
    rw [← named]
    exact (opensSpan_iff contract method).mpr traced
  wrap fails := by
    obtain ⟨error, found⟩ :=
      exists_find?_normalize (Naming.names (Naming.normalize [] method.parameters))
        method.results Parameter.errorType fails
    have named : (StubNames.ofMethod method).error = error.name :=
      congrArg (fun entry => (entry.map Parameter.name).getD Naming.errorName) found
    refine ⟨error, found, List.mem_append_left _ ?_⟩
    rw [← named]
    exact ((wrapsError_iff contract method).mpr fails).subset
      (List.mem_cons_of_mem _ (List.mem_cons_of_mem _ List.mem_cons_self))

end Stub

namespace StubNames

/-- Where the names of a method are different, those of its stub are different unless a
result keeps a name that a context or an error among the parameters is given.  The stub
refers to contexts and errors by the names that it declares. -/
theorem nodup_declared_iff (contract : Contract) (method : Method)
    (distinct : (bindings method.parameters ++ bindings method.results).Nodup) :
    (∃ lines, Stub.render contract method =
        Text.ofLines (Stub.heading contract method (ofMethod method) :: lines) ∧
      Stub.Refers contract method (ofMethod method) lines) ∧
    (((ofMethod method).declared method.hasContext).Nodup ↔
      (generatedNames (ofMethod method).parameters).Disjoint (keptNames method.results)) := by
  refine ⟨⟨_, rfl, Stub.refers_handling contract method _⟩, ?_⟩
  rw [nodup_declared_iff_signature, nodup_signature_iff method distinct]

/-- A method whose context and error cannot have their usual names. -/
def checkMethod : Method where
  name := "Check"
  parameters := [⟨"err", "string"⟩, ⟨"ctx", "int"⟩, ⟨"c", "context.Context"⟩]
  results := [⟨"", "error"⟩]

theorem nodup_declared_check :
    (bindings checkMethod.parameters ++ bindings checkMethod.results).Nodup ∧
      ((ofMethod checkMethod).declared checkMethod.hasContext).Nodup := by
  have distinct : (bindings checkMethod.parameters ++ bindings checkMethod.results).Nodup := by
    decide
  have bare : keptNames checkMethod.results = [] := rfl
  refine ⟨distinct, (nodup_declared_iff ⟨"Repository", "waltuh", [], [], [], []⟩ checkMethod
    distinct).2.mpr ?_⟩
  rw [bare]
  exact List.disjoint_nil_right _

/-- A method with a result that is named as contexts are. -/
def findMethod : Method where
  name := "Find"
  parameters := [⟨"c", "context.Context"⟩]
  results := [⟨"ctx", "int"⟩]

theorem not_nodup_declared_find :
    (bindings findMethod.parameters ++ bindings findMethod.results).Nodup ∧
      ¬ ((ofMethod findMethod).declared findMethod.hasContext).Nodup := by
  decide

end StubNames

end Scaffold
