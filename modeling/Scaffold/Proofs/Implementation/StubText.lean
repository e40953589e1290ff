import Scaffold.Implementation.DependencyBlock
import Scaffold.Implementation.Stub
import Scaffold.Proofs.Contract.Mentions
import Scaffold.Proofs.Text.Lines

/-!
# What stands in generated code

A stub shows every type of its method behind a gap, and the lines of tracing and
of error handling exactly where the method has a context or an error.
-/

namespace Scaffold

open Qualification (IsGap StandsIn)

namespace Naming

theorem map_type_nameEntries (parameters : List Parameter) :
    ∀ taken, (nameEntries taken parameters).map Parameter.type =
      parameters.map Parameter.type := by
  induction parameters with
  | nil => exact fun _ => rfl
  | cons parameter rest induction =>
      intro taken
      rw [nameEntries]
      split
      · rw [List.map_cons, induction, List.map_cons]
      · split <;> rw [List.map_cons, induction, List.map_cons]

theorem map_type_normalize (reserved : List Text) (parameters : List Parameter) :
    (normalize reserved parameters).map Parameter.type = parameters.map Parameter.type := by
  unfold normalize
  split
  · exact map_type_nameEntries parameters _
  · rfl

/-- Each type is shown by an entry, alone or behind a name. -/
theorem exists_entry_of_mem {parameters : List Parameter} :
    ∀ {parameter}, parameter ∈ parameters →
      ∃ entry ∈ writeEntries parameters,
        entry = parameter.type ∨ ∃ name, entry = name ++ ' ' :: parameter.type := by
  induction parameters with
  | nil => exact fun member => absurd member List.not_mem_nil
  | cons first rest induction =>
      intro parameter member
      rcases List.mem_cons.mp member with rfl | later
      · by_cases named : parameter.isNamed = true
        · cases rest with
          | nil =>
              exact ⟨parameter.name ++ ' ' :: parameter.type, by simp [writeEntries, named],
                .inr ⟨parameter.name, rfl⟩⟩
          | cons next others =>
              by_cases shared : (next.isNamed && next.type == parameter.type) = true
              · -- The next entry has the same type, and it is shown there or later.
                rw [Bool.and_eq_true, beq_iff_eq] at shared
                obtain ⟨entry, listed, shown⟩ := induction List.mem_cons_self
                rw [shared.2] at shown
                exact ⟨entry, List.mem_cons_of_mem _ listed, shown⟩
              · exact ⟨parameter.name ++ ' ' :: parameter.type,
                  by simp [writeEntries, named, shared], .inr ⟨parameter.name, rfl⟩⟩
        · exact ⟨parameter.type, by simp [writeEntries, named], .inl rfl⟩
      · obtain ⟨entry, listed, shown⟩ := induction later
        exact ⟨entry, List.mem_cons_of_mem _ listed, shown⟩

/-- The entries of a list stand behind the separator or behind what opens the
list. -/
theorem standsIn_join {entry : Text} {opening : Char} (opens : IsGap opening) :
    ∀ {entries : List Text}, entry ∈ entries →
      StandsIn entry (opening :: Text.join [',', ' '] entries)
  | [], member => absurd member List.not_mem_nil
  | [only], member => ⟨opening, opens, by rw [List.mem_singleton.mp member, Text.join]⟩
  | first :: next :: rest, member => by
      rw [Text.join]
      rcases List.mem_cons.mp member with rfl | later
      · exact ⟨opening, opens, [], _, by simp; rfl⟩
      · have blank : IsGap ' ' := by decide
        obtain ⟨gap, separates, part⟩ := standsIn_join blank later
        refine ⟨gap, separates, part.trans ⟨opening :: first ++ [','], [], ?_⟩⟩
        simp

theorem standsIn_write {parameters : List Parameter} {opening : Char} (opens : IsGap opening)
    {parameter : Parameter} (member : parameter ∈ parameters) :
    StandsIn parameter.type (opening :: write parameters) := by
  obtain ⟨entry, listed, rfl | ⟨name, rfl⟩⟩ := exists_entry_of_mem member
  · exact standsIn_join opens listed
  · obtain ⟨gap, _, part⟩ := standsIn_join opens listed
    have behindName : StandsIn parameter.type (gap :: (name ++ ' ' :: parameter.type)) :=
      ⟨' ', by decide, gap :: name, [], by simp⟩
    exact behindName.mono part

theorem standsIn_writeResults {results : List Parameter} {result : Parameter}
    (member : result ∈ results) : StandsIn result.type (' ' :: writeResults results) := by
  unfold writeResults
  split
  · have opens : IsGap '(' := by decide
    exact (standsIn_write opens member).mono ⟨[' '], [')'], by simp⟩
  · have opens : IsGap ' ' := by decide
    exact standsIn_write opens member

theorem exists_of_mem_normalize {reserved : List Text} {parameters : List Parameter}
    {parameter : Parameter} (member : parameter ∈ parameters) :
    ∃ named ∈ normalize reserved parameters, named.type = parameter.type := by
  have shown : parameter.type ∈ (normalize reserved parameters).map Parameter.type := by
    rw [map_type_normalize]
    exact List.mem_map_of_mem member
  exact List.mem_map.mp shown

theorem any_type_normalize (reserved : List Text) (parameters : List Parameter)
    (accepts : Text → Bool) :
    ((normalize reserved parameters).any fun parameter => accepts parameter.type) =
      parameters.any fun parameter => accepts parameter.type := by
  have whole (list : List Parameter) :
      (list.any fun parameter => accepts parameter.type) =
        (list.map Parameter.type).any accepts := by
    rw [List.any_map]
    rfl
  rw [whole, whole, map_type_normalize]

end Naming

namespace Stub

variable (contract : Contract) (method : Method)

theorem parameters_within_heading (names : StubNames) :
    ('(' :: Naming.write names.parameters) <:+: heading contract method names := by
  unfold heading
  dsimp only
  generalize (if (Naming.writeResults names.results).isEmpty then ([' '] : Text)
    else [' '] ++ Naming.writeResults names.results ++ [' ']) = results
  exact ⟨"func (" ++ names.receiver ++ " *" ++ contract.backingName ++ ") " ++ method.name,
    ')' :: (results ++ "\x7b"), by simp⟩

theorem results_within_heading (names : StubNames) :
    (' ' :: Naming.writeResults names.results) <:+: heading contract method names := by
  unfold heading
  dsimp only
  generalize "func (" ++ names.receiver ++ " *" ++ contract.backingName ++ ") " ++ method.name ++
    "(" ++ Naming.write names.parameters ++ ")" = before
  split
  · rename_i empty
    rw [List.isEmpty_iff.mp empty]
    exact ⟨before, "\x7b", rfl⟩
  · exact ⟨before, " \x7b", by simp⟩

theorem standsIn_render {parameter : Parameter}
    (member : parameter ∈ method.parameters ++ method.results) :
    StandsIn parameter.type (render contract method) := by
  have heads : heading contract method (StubNames.ofMethod method) <:+:
      render contract method :=
    Text.line_within_ofLines List.mem_cons_self
  rcases List.mem_append.mp member with given | returned
  · obtain ⟨named, listed, same⟩ := Naming.exists_of_mem_normalize given
    have opens : IsGap '(' := by decide
    rw [← same]
    exact (Naming.standsIn_write opens listed).mono
      ((parameters_within_heading contract method _).trans heads)
  · obtain ⟨named, listed, same⟩ := Naming.exists_of_mem_normalize returned
    rw [← same]
    exact (Naming.standsIn_writeResults listed).mono
      ((results_within_heading contract method _).trans heads)

/-! ## Tracing and error handling -/

/-- The stub opens a span. -/
def OpensSpan : Prop :=
  openSpan contract method (StubNames.ofMethod method) ∈
    handling contract method (StubNames.ofMethod method)

/-- The stub sets the status of its span. -/
def SetsStatus : Prop :=
  failSpan (StubNames.ofMethod method) <:+:
    handling contract method (StubNames.ofMethod method)

/-- The stub wraps an error. -/
def WrapsError : Prop :=
  wrapError contract method (StubNames.ofMethod method) <:+:
    handling contract method (StubNames.ofMethod method)

theorem context_of_hasContext_eq_false {method : Method} (none : method.hasContext = false) :
    (StubNames.ofMethod method).context = Naming.contextName := by
  have absent : ((StubNames.ofMethod method).parameters.any Parameter.isContext) = false :=
    (Naming.any_type_normalize [] method.parameters (· == Parameter.contextType)).trans none
  rw [List.any_eq_false] at absent
  rw [StubNames.context, List.find?_eq_none.mpr absent]
  rfl

theorem opensSpan_iff : OpensSpan contract method ↔ method.hasContext = true := by
  unfold OpensSpan handling
  constructor
  · intro member
    by_contra none
    have usual := context_of_hasContext_eq_false (Bool.eq_false_iff.mpr none)
    rw [if_neg none] at member
    generalize StubNames.ofMethod method = names at member usual
    have second : (openSpan contract method names).tail.head? = some 'c' := by
      unfold openSpan
      simp only [List.append_assoc, usual]
      rfl
    split at member
    · have others : ∀ line ∈ wrapError contract method names ++ endWrapping,
          line.tail.head? ≠ some 'c' := by
        simp [wrapError, endWrapping]
      exact others _ member second
    · exact List.not_mem_nil member
  · intro traced
    rw [if_pos traced]
    exact List.mem_append_left _ List.mem_cons_self

theorem setsStatus_iff :
    SetsStatus contract method ↔ method.hasContext = true ∧ method.returnsError = true := by
  unfold SetsStatus handling
  constructor
  · intro part
    split at part
    · rename_i traced
      refine ⟨traced, ?_⟩
      by_contra fine
      rw [if_neg fine] at part
      exact absurd part.length_le (by simp [failSpan])
    · split at part
      · have same := part.eq_of_length (by simp [failSpan, wrapError, endWrapping])
        have second := congrArg (fun lines => lines.head?.bind fun line => line.tail.head?) same
        simp [failSpan, wrapError] at second
      · exact absurd part.length_le (by simp [failSpan])
  · rintro ⟨traced, fails⟩
    rw [if_pos traced, if_pos fails]
    generalize StubNames.ofMethod method = names
    exact ⟨openSpan contract method names :: wrapError contract method names,
      ["\t_ = " ++ names.context], by simp⟩

theorem wrapsError_iff : WrapsError contract method ↔ method.returnsError = true := by
  unfold WrapsError handling
  constructor
  · intro part
    by_contra fine
    rw [if_neg fine, if_neg fine] at part
    split at part
    · have same := part.eq_of_length (by simp [wrapError])
      have second := congrArg (fun lines => lines.tail.head?.bind fun line => line.tail.head?) same
      simp [wrapError] at second
    · exact absurd part.length_le (by simp [wrapError])
  · intro fails
    rw [if_pos fails, if_pos fails]
    generalize StubNames.ofMethod method = names
    split
    · exact ⟨[openSpan contract method names], failSpan names ++ ["\t_ = " ++ names.context],
        by simp⟩
    · exact ⟨[], endWrapping, rfl⟩

/-! ## Names that the lines use -/

theorem handling_within_render {line : Text}
    (member : line ∈ handling contract method (StubNames.ofMethod method)) :
    line <:+: render contract method := by
  apply Text.line_within_ofLines
  exact List.mem_cons_of_mem _ (List.mem_append_left _ member)

theorem standsIn_tracing {method : Method} (traced : method.hasContext = true) :
    StandsIn "otel." (render contract method) := by
  have line : StandsIn "otel." (openSpan contract method (StubNames.ofMethod method)) := by
    generalize StubNames.ofMethod method = names
    unfold openSpan
    simp only [List.append_assoc]
    exact ⟨' ', by decide, "\t" ++ (names.context ++ (", " ++ (names.span ++ " :="))), _, by
      simp only [List.append_assoc]; rfl⟩
  exact line.mono (handling_within_render contract method
    ((opensSpan_iff contract method).mpr traced))

theorem standsIn_codes {method : Method} (traced : method.hasContext = true)
    (fails : method.returnsError = true) : StandsIn "codes." (render contract method) := by
  have status := (setsStatus_iff contract method).mpr ⟨traced, fails⟩
  have line : StandsIn "codes."
      ("\t\t\t" ++ (StubNames.ofMethod method).span ++ ".SetStatus(codes.Error, \"\")") := by
    generalize StubNames.ofMethod method = names
    exact ⟨'(', by decide, "\t\t\t" ++ names.span ++ ".SetStatus", "Error, \"\")", by
      simp only [List.append_assoc]; rfl⟩
  exact line.mono (handling_within_render contract method (status.subset List.mem_cons_self))

theorem standsIn_errors {method : Method} (fails : method.returnsError = true) :
    StandsIn "eris." (render contract method) := by
  have wrapped := (wrapsError_iff contract method).mpr fails
  have line : StandsIn "eris." ("\t\t\t" ++ (StubNames.ofMethod method).error ++ " = eris.Wrap(" ++
      (StubNames.ofMethod method).error ++ ", \"" ++ label contract method ++ "\")") := by
    generalize StubNames.ofMethod method = names
    simp only [List.append_assoc]
    exact ⟨' ', by decide, "\t\t\t" ++ (names.error ++ " ="), _, by
      simp only [List.append_assoc]; rfl⟩
  exact line.mono (handling_within_render contract method
    (wrapped.subset (List.mem_cons_of_mem _ (List.mem_cons_of_mem _ List.mem_cons_self))))

end Stub

namespace DependencyBlock

theorem standsIn_options (qualifier : Text) (contract : Contract) :
    StandsIn "fx." (render qualifier contract) := by
  have line : StandsIn "fx." "\tfx.In" := ⟨'\t', by decide, [], "In", rfl⟩
  exact line.mono (Text.line_within_ofLines (by simp))

theorem standsIn_qualifier {qualifier : Text} (named : qualifier ≠ []) (contract : Contract) :
    StandsIn (qualifier ++ ['.']) (render qualifier contract) := by
  have line : StandsIn (qualifier ++ ['.']) ("func " ++ constructorName contract ++ "(deps " ++
      dependenciesName contract ++ ") " ++ returnType qualifier contract ++ " \x7b") := by
    rw [returnType, if_neg (by simpa using named)]
    exact ⟨' ', by decide, "func " ++ constructorName contract ++ "(deps " ++
      dependenciesName contract ++ ")", contract.name ++ " \x7b", by
        simp only [List.append_assoc, List.cons_append]; rfl⟩
  exact line.mono (Text.line_within_ofLines (by simp))

end DependencyBlock

end Scaffold
