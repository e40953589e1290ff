import Scaffold.Proofs.Go.UsedNames
import Scaffold.Proofs.Implementation.StubNames

/-!
# What the body of a stub refers to

The body of a stub means the packages for tracing and for errors and two names of the
language.  Contexts, errors, receivers and spans are never named like these, but a
parameter or a result that keeps its name can be.
-/

namespace Scaffold

open Go (IsIdentifier IsQuotable Reads ReadsLines RefersTo readsLines_nil readsLines_singleton)

namespace Stub

variable {contract : Contract} {method : Method} {names : StubNames}

/-! ## Reading the lines of a body

Each line is first put in a shape in which its lexemes stand one behind the other, and
then read lexeme by lexeme. -/

theorem readsLines_openSpan (context : IsIdentifier names.context) (span : IsIdentifier names.span)
    (package : IsQuotable contract.packageName)
    (operation : IsQuotable (contract.shortName ++ '.' :: method.name)) :
    ReadsLines [openSpan contract method names] [names.context, names.span, "otel", names.context] := by
  refine readsLines_singleton fun rest used later => ?_
  have shape : openSpan contract method names ++ '\n' :: rest =
      '\t' :: (names.context ++ ',' :: ' ' :: (names.span ++ ' ' :: ([':', '='] ++ ' ' ::
        ("otel" ++ '.' :: ("GetTracerProvider" ++ '(' :: ')' :: '.' :: ("Tracer" ++ '(' :: '"' ::
          (contract.packageName ++ '"' :: ')' :: '.' :: ("Start" ++ '(' ::
            (names.context ++ ',' :: ' ' :: '"' :: ((contract.shortName ++ '.' :: method.name) ++
              '"' :: ')' :: '\n' :: rest)))))))))) := by
    unfold openSpan
    simp only [List.append_assoc]
    rfl
  rw [shape]
  exact .blank (by decide) (.name context (by decide) (.mark (by decide) (.blank (by decide)
    (.name span (by decide) (.blank (by decide) (.spaced (by decide) (.name (by decide) (by decide)
      (.select (by decide) (by decide) (.mark (by decide) (.mark (by decide)
        (.select (by decide) (by decide) (.mark (by decide) (.quoted package (.mark (by decide)
          (.select (by decide) (by decide) (.mark (by decide) (.name context (by decide)
            (.mark (by decide) (.blank (by decide) (.quoted operation (.mark (by decide)
              (.blank (by decide) later))))))))))))))))))))))

theorem readsLines_deferred : ReadsLines ["\tdefer func() \x7b"] [] := by
  refine readsLines_singleton fun rest used later => ?_
  have shape : ("\tdefer func() \x7b" : Text) ++ '\n' :: rest =
      '\t' :: ("defer" ++ ' ' :: ("func" ++ '(' :: ')' :: ' ' :: '\x7b' :: '\n' :: rest)) := rfl
  rw [shape]
  exact .blank (by decide) (.keyword (by decide) (by decide) (.blank (by decide)
    (.keyword (by decide) (by decide) (.mark (by decide) (.mark (by decide) (.blank (by decide)
      (.mark (by decide) (.blank (by decide) later))))))))

theorem readsLines_guard (error : IsIdentifier names.error) :
    ReadsLines ["\t\tif " ++ names.error ++ " != nil \x7b"] [names.error, "nil"] := by
  refine readsLines_singleton fun rest used later => ?_
  have shape : ("\t\tif " ++ names.error ++ " != nil \x7b" : Text) ++ '\n' :: rest =
      '\t' :: '\t' :: ("if" ++ ' ' :: (names.error ++ ' ' :: (['!', '='] ++ ' ' :: ("nil" ++
        ' ' :: '\x7b' :: '\n' :: rest)))) := by
    simp only [List.append_assoc]
    rfl
  rw [shape]
  exact .blank (by decide) (.blank (by decide) (.keyword (by decide) (by decide)
    (.blank (by decide) (.name error (by decide) (.blank (by decide) (.spaced (by decide)
      (.name (by decide) (by decide) (.blank (by decide) (.mark (by decide)
        (.blank (by decide) later))))))))))

theorem readsLines_wrap (error : IsIdentifier names.error)
    (labelled : IsQuotable (label contract method)) :
    ReadsLines ["\t\t\t" ++ names.error ++ " = eris.Wrap(" ++ names.error ++ ", \"" ++
      label contract method ++ "\")"] [names.error, "eris", names.error] := by
  refine readsLines_singleton fun rest used later => ?_
  have shape : ("\t\t\t" ++ names.error ++ " = eris.Wrap(" ++ names.error ++ ", \"" ++
      label contract method ++ "\")" : Text) ++ '\n' :: rest =
        '\t' :: '\t' :: '\t' :: (names.error ++ ' ' :: (['='] ++ ' ' :: ("eris" ++ '.' ::
          ("Wrap" ++ '(' :: (names.error ++ ',' :: ' ' :: '"' :: (label contract method ++ '"' ::
            ')' :: '\n' :: rest)))))) := by
    simp only [List.append_assoc]
    rfl
  rw [shape]
  exact .blank (by decide) (.blank (by decide) (.blank (by decide) (.name error (by decide)
    (.blank (by decide) (.spaced (by decide) (.name (by decide) (by decide)
      (.select (by decide) (by decide) (.mark (by decide) (.name error (by decide)
        (.mark (by decide) (.blank (by decide) (.quoted labelled (.mark (by decide)
          (.blank (by decide) later))))))))))))))

theorem readsLines_wrapError (error : IsIdentifier names.error)
    (labelled : IsQuotable (label contract method)) :
    ReadsLines (wrapError contract method names)
      [names.error, "nil", names.error, "eris", names.error] :=
  readsLines_deferred.append ((readsLines_guard error).append (readsLines_wrap error labelled))

theorem readsLines_closing : ReadsLines ["\t\t\x7d"] [] := by
  refine readsLines_singleton fun rest used later => ?_
  exact .blank (by decide) (.blank (by decide) (.mark (by decide) (.blank (by decide) later)))

theorem readsLines_called : ReadsLines ["\t\x7d()"] [] := by
  refine readsLines_singleton fun rest used later => ?_
  exact .blank (by decide) (.mark (by decide) (.mark (by decide) (.mark (by decide)
    (.blank (by decide) later))))

theorem readsLines_status (span : IsIdentifier names.span) :
    ReadsLines ["\t\t\t" ++ names.span ++ ".SetStatus(codes.Error, \"\")"]
      [names.span, "codes"] := by
  refine readsLines_singleton fun rest used later => ?_
  have shape : ("\t\t\t" ++ names.span ++ ".SetStatus(codes.Error, \"\")" : Text) ++
      '\n' :: rest = '\t' :: '\t' :: '\t' :: (names.span ++ '.' :: ("SetStatus" ++ '(' ::
        ("codes" ++ '.' :: ("Error" ++ ',' :: ' ' :: '"' :: ([] ++ '"' :: ')' :: '\n' ::
          rest))))) := by
    simp only [List.append_assoc]
    rfl
  rw [shape]
  exact .blank (by decide) (.blank (by decide) (.blank (by decide) (.name span (by decide)
    (.select (by decide) (by decide) (.mark (by decide) (.name (by decide) (by decide)
      (.select (by decide) (by decide) (.mark (by decide) (.blank (by decide) (.quoted (by decide)
        (.mark (by decide) (.blank (by decide) later))))))))))))

theorem readsLines_record (span : IsIdentifier names.span) (error : IsIdentifier names.error) :
    ReadsLines ["\t\t\t" ++ names.span ++ ".RecordError(" ++ names.error ++ ")"]
      [names.span, names.error] := by
  refine readsLines_singleton fun rest used later => ?_
  have shape : ("\t\t\t" ++ names.span ++ ".RecordError(" ++ names.error ++ ")" : Text) ++
      '\n' :: rest = '\t' :: '\t' :: '\t' :: (names.span ++ '.' :: ("RecordError" ++ '(' ::
        (names.error ++ ')' :: '\n' :: rest))) := by
    simp only [List.append_assoc]
    rfl
  rw [shape]
  exact .blank (by decide) (.blank (by decide) (.blank (by decide) (.name span (by decide)
    (.select (by decide) (by decide) (.mark (by decide) (.name error (by decide)
      (.mark (by decide) (.blank (by decide) later))))))))

theorem reads_endSpan (span : IsIdentifier names.span) {rest : Text} {used : List Text}
    (later : Reads false rest used) :
    Reads false (names.span ++ (".End()" ++ '\n' :: rest)) (names.span :: used) := by
  have shape : (".End()" : Text) ++ '\n' :: rest =
      '.' :: ("End" ++ '(' :: ')' :: '\n' :: rest) := rfl
  rw [shape]
  exact .name span (by decide) (.select (by decide) (by decide) (.mark (by decide)
    (.mark (by decide) (.blank (by decide) later))))

theorem readsLines_failSpan (span : IsIdentifier names.span) (error : IsIdentifier names.error) :
    ReadsLines (failSpan names) [names.span, "codes", names.span, names.error, names.span] := by
  have ended : ReadsLines ["\t\t" ++ names.span ++ ".End()"] [names.span] := by
    refine readsLines_singleton fun rest used later => ?_
    simp only [List.append_assoc]
    exact .blank (by decide) (.blank (by decide) (reads_endSpan span later))
  exact (readsLines_status span).append ((readsLines_record span error).append
    (readsLines_closing.append (ended.append readsLines_called)))

theorem readsLines_deferEnd (span : IsIdentifier names.span) :
    ReadsLines ["\tdefer " ++ names.span ++ ".End()"] [names.span] := by
  refine readsLines_singleton fun rest used later => ?_
  have shape : ("\tdefer " ++ names.span ++ ".End()" : Text) ++ '\n' :: rest =
      '\t' :: ("defer" ++ ' ' :: (names.span ++ (".End()" ++ '\n' :: rest))) := by
    simp only [List.append_assoc]
    rfl
  rw [shape]
  exact .blank (by decide) (.keyword (by decide) (by decide) (.blank (by decide)
    (reads_endSpan span later)))

theorem readsLines_discard (context : IsIdentifier names.context) :
    ReadsLines ["\t_ = " ++ names.context] [Naming.blank, names.context] := by
  refine readsLines_singleton fun rest used later => ?_
  have shape : ("\t_ = " ++ names.context : Text) ++ '\n' :: rest =
      '\t' :: (Naming.blank ++ ' ' :: (['='] ++ ' ' :: (names.context ++ '\n' :: rest))) := by
    simp only [List.append_assoc]
    rfl
  rw [shape]
  exact .blank (by decide) (.name (by decide) (by decide) (.blank (by decide)
    (.spaced (by decide) (.name context (by decide) (.blank (by decide) later)))))

theorem readsLines_panicLine (labelled : IsQuotable (label contract method)) :
    ReadsLines [panicLine contract method] ["panic"] := by
  refine readsLines_singleton fun rest used later => ?_
  have message : IsQuotable ("TODO: implement " ++ label contract method) :=
    List.forall_mem_append.mpr ⟨(by decide : IsQuotable "TODO: implement "), labelled⟩
  have shape : panicLine contract method ++ '\n' :: rest =
      '\t' :: ("panic" ++ '(' :: '"' :: (("TODO: implement " ++ label contract method) ++
        '"' :: ')' :: '\n' :: rest)) := by
    unfold panicLine
    simp only [List.append_assoc]
    rfl
  rw [shape]
  exact .blank (by decide) (.name (by decide) (by decide) (.mark (by decide)
    (.quoted message (.mark (by decide) (.blank (by decide) later)))))

/-! ## What a body refers to -/

/-- The text between the heading of a stub and its closing brace. -/
def body (contract : Contract) (method : Method) : Text :=
  Text.ofLines (handling contract method (StubNames.ofMethod method) ++
    [panicLine contract method])

/-- The names in the lines of tracing and of error handling. -/
def handlingNames (method : Method) (names : StubNames) : List Text :=
  if method.hasContext then
    [names.context, names.span, "otel", names.context] ++
      (if method.returnsError then
        [names.error, "nil", names.error, "eris", names.error] ++
          [names.span, "codes", names.span, names.error, names.span]
        else [names.span]) ++
      [Naming.blank, names.context]
  else if method.returnsError then [names.error, "nil", names.error, "eris", names.error]
  else []

/-- The names of contract and method can stand in strings as they are. -/
structure IsSpellable (contract : Contract) (method : Method) : Prop where
  package : IsQuotable contract.packageName
  contract : IsQuotable contract.name
  method : IsQuotable method.name

instance (contract : Contract) (method : Method) : Decidable (IsSpellable contract method) :=
  decidable_of_iff (IsQuotable contract.packageName ∧ IsQuotable contract.name ∧
      IsQuotable method.name)
    ⟨fun ⟨package, contract, method⟩ => ⟨package, contract, method⟩,
      fun spelled => ⟨spelled.package, spelled.contract, spelled.method⟩⟩

theorem IsSpellable.operation (spelled : IsSpellable contract method) :
    IsQuotable (contract.shortName ++ '.' :: method.name) := by
  refine List.forall_mem_append.mpr ⟨?_, List.forall_mem_cons.mpr ⟨by decide, spelled.method⟩⟩
  unfold Contract.shortName
  split
  · exact fun character member => spelled.contract character (List.mem_of_mem_take member)
  · exact spelled.contract

theorem IsSpellable.label (spelled : IsSpellable contract method) :
    IsQuotable (label contract method) := by
  have dotted {text : Text} (quotable : IsQuotable text) : IsQuotable (text ++ ['.']) :=
    List.forall_mem_append.mpr ⟨quotable, (by decide : IsQuotable ['.'])⟩
  have qualified : IsQuotable contract.qualifiedName := by
    unfold Contract.qualifiedName
    split
    · exact spelled.contract
    · exact List.forall_mem_append.mpr ⟨dotted spelled.package, spelled.contract⟩
  exact List.forall_mem_append.mpr ⟨dotted qualified, spelled.method⟩

theorem readsLines_handling (spelled : IsSpellable contract method)
    (context : IsIdentifier names.context) (error : IsIdentifier names.error)
    (span : IsIdentifier names.span) :
    ReadsLines (handling contract method names) (handlingNames method names) := by
  have opened := readsLines_openSpan context span spelled.package spelled.operation
  have wrapped := readsLines_wrapError error spelled.label
  unfold handling handlingNames
  split
  · refine opened.append (ReadsLines.append ?_ (readsLines_discard context))
    split
    · exact wrapped.append (readsLines_failSpan span error)
    · exact readsLines_deferEnd span
  · split
    · exact wrapped.append (readsLines_closing.append readsLines_called)
    · exact readsLines_nil

/-! ## Names that a stub gives -/

/-- What a stub names itself, before numbers are put behind it. -/
def givenBases : List Text :=
  [Naming.contextName, Naming.errorName, StubNames.receiverName, StubNames.spanName]

/-- The packages and the names of the language that bodies mean. -/
def externals : List Text :=
  ["otel", "nil", "eris", "codes", "panic"]

theorem ne_choose_of_mem_externals {name base : Text} (listed : name ∈ externals)
    (known : base ∈ givenBases) (taken : List Text) : name ≠ FreshName.choose base taken := by
  have foreign : ∀ base ∈ givenBases, ∀ name ∈ externals, ¬ base <+: name := by
    decide
  rintro rfl
  exact foreign base known _ listed (FreshName.isPrefix_choose base taken)

theorem generatedBases_subset : Naming.generatedBases ⊆ givenBases := by
  decide

/-- The first context or error of a list has a name that is chosen for it. -/
theorem exists_choose_of_find? {usual : Text} (known : usual ∈ Naming.generatedBases)
    {accepts : Parameter → Bool}
    (kind : ∀ parameter, accepts parameter = true → Naming.isGenerated parameter = true)
    (reserved : List Text) (parameters : List Parameter) :
    ∃ base ∈ Naming.generatedBases, ∃ taken,
      (((Naming.normalize reserved parameters).find? accepts).map Parameter.name).getD usual =
        FreshName.choose base taken := by
  cases found : (Naming.normalize reserved parameters).find? accepts with
  | none => exact ⟨usual, known, [], rfl⟩
  | some parameter =>
      have generated := Naming.mem_generatedNames_iff.mpr ⟨parameter, List.mem_of_find?_eq_some found,
        kind parameter (List.find?_some found), rfl⟩
      obtain ⟨base, listed, taken, -, chosen⟩ := Naming.exists_of_mem_generatedNames generated
      exact ⟨base, listed, taken, chosen⟩

theorem exists_choose_context (method : Method) :
    ∃ base ∈ Naming.generatedBases, ∃ taken,
      (StubNames.ofMethod method).context = FreshName.choose base taken :=
  exists_choose_of_find? (by decide)
    (fun _ isContext => by rw [Naming.isGenerated, isContext, Bool.true_or]) _ _

theorem exists_choose_error (method : Method) :
    ∃ base ∈ Naming.generatedBases, ∃ taken,
      (StubNames.ofMethod method).error = FreshName.choose base taken :=
  exists_choose_of_find? (by decide)
    (fun _ isError => by rw [Naming.isGenerated, isError, Bool.or_true]) _ _

theorem isIdentifier_span (method : Method) : IsIdentifier (StubNames.ofMethod method).span := by
  have proper : IsIdentifier StubNames.spanName ∧
      ∀ entry ∈ Go.keywords, ¬ StubNames.spanName <+: entry.1 := by
    decide
  exact proper.1.choose proper.2 _

/-! ## Capture -/

/-- The name is the name of a package or of the language, and the body refers to it. -/
def Means (contract : Contract) (method : Method) (name : Text) : Prop :=
  name ∈ externals ∧ RefersTo (body contract method) name

/-- The packages and the names of the language that the body of a method means. -/
def externalsOf (method : Method) : List Text :=
  (if method.hasContext then ["otel"] else []) ++
    (if method.returnsError then ["nil", "eris"] else []) ++
    (if method.hasContext && method.returnsError then ["codes"] else []) ++ ["panic"]

/-- Something that the stub declares has a name by which its body means something else. -/
def IsCaptured (contract : Contract) (method : Method) : Prop :=
  ∃ name ∈ (StubNames.ofMethod method).declared method.hasContext, Means contract method name

theorem mem_handlingNames_iff {name : Text} (listed : name ∈ externals) :
    name ∈ handlingNames method (StubNames.ofMethod method) ++ [("panic" : Text)] ↔
      name ∈ externalsOf method := by
  obtain ⟨contextBase, contextKnown, contextTaken, context⟩ := exists_choose_context method
  obtain ⟨errorBase, errorKnown, errorTaken, error⟩ := exists_choose_error method
  have noContext : name ≠ (StubNames.ofMethod method).context :=
    context ▸ ne_choose_of_mem_externals listed (generatedBases_subset contextKnown) _
  have noError : name ≠ (StubNames.ofMethod method).error :=
    error ▸ ne_choose_of_mem_externals listed (generatedBases_subset errorKnown) _
  have noSpan : name ≠ (StubNames.ofMethod method).span :=
    ne_choose_of_mem_externals listed (by decide : StubNames.spanName ∈ givenBases) _
  have noBlank : name ≠ Naming.blank := by
    rintro rfl
    exact absurd listed (by decide)
  -- Without the stub's own names the two lists are the same in each of the four cases.
  unfold handlingNames externalsOf
  cases method.hasContext <;> cases method.returnsError <;>
    simp [noContext, noError, noSpan, noBlank]

theorem reads_body (spelled : IsSpellable contract method) :
    Reads false (body contract method)
      (handlingNames method (StubNames.ofMethod method) ++ [("panic" : Text)]) := by
  have identifier {base other : Text} {taken : List Text} (known : base ∈ Naming.generatedBases)
      (chosen : other = FreshName.choose base taken) : IsIdentifier other :=
    chosen ▸ Naming.isIdentifier_choose known taken
  obtain ⟨_, contextKnown, _, context⟩ := exists_choose_context method
  obtain ⟨_, errorKnown, _, error⟩ := exists_choose_error method
  have lines := readsLines_handling spelled (identifier contextKnown context)
    (identifier errorKnown error) (isIdentifier_span method)
  exact (lines.append (readsLines_panicLine spelled.label)).reads

theorem means_iff (spelled : IsSpellable contract method) {name : Text} :
    Means contract method name ↔ name ∈ externalsOf method := by
  have within : externalsOf method ⊆ externals := by
    unfold externalsOf
    cases method.hasContext <;> cases method.returnsError <;> decide
  rw [Means, Go.refersTo_iff (reads_body spelled)]
  exact ⟨fun ⟨listed, member⟩ => (mem_handlingNames_iff listed).mp member,
    fun member => ⟨within member, (mem_handlingNames_iff (within member)).mpr member⟩⟩

theorem mem_of_refersTo_body (spelled : IsSpellable contract method) {name : Text}
    (refers : RefersTo (body contract method) name) :
    name ∈ externals ∨ name ∈ [Naming.blank, (StubNames.ofMethod method).context,
      (StubNames.ofMethod method).error, (StubNames.ofMethod method).span] := by
  rw [Go.refersTo_iff (reads_body spelled)] at refers
  generalize StubNames.ofMethod method = names at refers ⊢
  have all : handlingNames method names ++ [("panic" : Text)] ⊆
      externals ++ [Naming.blank, names.context, names.error, names.span] := by
    unfold handlingNames externals
    cases method.hasContext <;> cases method.returnsError <;> simp
  exact List.mem_append.mp (all refers)

/-- What a stub declares by a name of one of these packages or of the language is an entry
that keeps its name. -/
theorem exists_kept_of_mem_declared {name : Text} (listed : name ∈ externals)
    (member : name ∈ (StubNames.ofMethod method).declared method.hasContext) :
    ∃ parameter ∈ method.parameters ++ method.results,
      Naming.isGenerated parameter = false ∧ parameter.name = name := by
  have ofList {reserved : List Text} {parameters : List Parameter}
      (bound : name ∈ Naming.bindings (Naming.normalize reserved parameters)) :
      ∃ parameter ∈ parameters, Naming.isGenerated parameter = false ∧ parameter.name = name := by
    rcases Naming.mem_bindings_normalize_iff.mp bound with kept | generated
    · obtain ⟨parameter, old, -, -, kind, same⟩ := Naming.mem_keptNames_iff.mp kept
      exact ⟨parameter, old, kind, same⟩
    · obtain ⟨base, known, taken, -, chosen⟩ := Naming.exists_of_mem_generatedNames generated
      exact absurd chosen (ne_choose_of_mem_externals listed (generatedBases_subset known) taken)
  rcases List.mem_append.mp member with bound | own
  · rcases List.mem_append.mp bound with given | returned
    · obtain ⟨parameter, old, kept⟩ := ofList given
      exact ⟨parameter, List.mem_append_left _ old, kept⟩
    · obtain ⟨parameter, old, kept⟩ := ofList returned
      exact ⟨parameter, List.mem_append_right _ old, kept⟩
  · have receiverKnown : StubNames.receiverName ∈ givenBases := by decide
    have spanKnown : StubNames.spanName ∈ givenBases := by decide
    rcases List.mem_cons.mp own with receiver | traced
    · exact absurd receiver (ne_choose_of_mem_externals listed receiverKnown _)
    · split at traced
      · exact absurd (List.mem_singleton.mp traced)
          (ne_choose_of_mem_externals listed spanKnown _)
      · cases traced

theorem mem_declared_of_kept {parameter : Parameter}
    (member : parameter ∈ method.parameters ++ method.results)
    (kind : Naming.isGenerated parameter = false) (listed : parameter.name ∈ externals) :
    parameter.name ∈ (StubNames.ofMethod method).declared method.hasContext := by
  have proper : ∀ name ∈ externals, name ≠ [] ∧ name ≠ Naming.blank := by decide
  obtain ⟨named, visible⟩ := proper _ listed
  have kept {parameters : List Parameter} (old : parameter ∈ parameters) :
      parameter.name ∈ Naming.keptNames parameters :=
    Naming.mem_keptNames_iff.mpr
      ⟨parameter, old, by simpa [Parameter.isNamed] using named, visible, kind, rfl⟩
  refine List.mem_append_left _ (List.mem_append.mpr ?_)
  exact (List.mem_append.mp member).imp
    (fun old => Naming.mem_bindings_normalize_iff.mpr (.inl (kept old)))
    (fun old => Naming.mem_bindings_normalize_iff.mpr (.inl (kept old)))

theorem isCaptured_iff_kept :
    IsCaptured contract method ↔ ∃ parameter ∈ method.parameters ++ method.results,
      Naming.isGenerated parameter = false ∧ Means contract method parameter.name := by
  constructor
  · rintro ⟨name, member, means⟩
    obtain ⟨parameter, listed, kind, rfl⟩ := exists_kept_of_mem_declared means.1 member
    exact ⟨parameter, listed, kind, means⟩
  · rintro ⟨parameter, listed, kind, means⟩
    exact ⟨parameter.name, mem_declared_of_kept listed kind means.1, means⟩

/-- The body of a stub refers to something that the stub declares instead of a package or
a name of the language exactly if an entry that keeps its name is named like one of them
that the body means.  Tracing means `otel`, the handling of errors `nil` and `eris`, both
together `codes`, and every body means `panic`; all other names are the stub's own. -/
theorem isCaptured_iff (contract : Contract) (method : Method) :
    render contract method =
        Text.ofLines [heading contract method (StubNames.ofMethod method)] ++
          (body contract method ++ Text.ofLines [['\x7d']]) ∧
      (IsCaptured contract method ↔ ∃ parameter ∈ method.parameters ++ method.results,
        Naming.isGenerated parameter = false ∧ Means contract method parameter.name) ∧
      (IsSpellable contract method →
        (∀ name, Means contract method name ↔ name ∈ externalsOf method) ∧
        ∀ name, RefersTo (body contract method) name → name ∈ externals ∨
          name ∈ [Naming.blank, (StubNames.ofMethod method).context,
            (StubNames.ofMethod method).error, (StubNames.ofMethod method).span]) := by
  refine ⟨?_, isCaptured_iff_kept, fun spelled =>
    ⟨fun _ => means_iff spelled, fun _ => mem_of_refersTo_body spelled⟩⟩
  simp [render, body, Text.ofLines]

theorem not_isCaptured_check :
    IsSpellable ⟨"Repository", "waltuh", [], [], [], []⟩ StubNames.checkMethod ∧
      ¬ IsCaptured ⟨"Repository", "waltuh", [], [], [], []⟩ StubNames.checkMethod := by
  have spelled : IsSpellable ⟨"Repository", "waltuh", [], [], [], []⟩ StubNames.checkMethod := by
    decide
  obtain ⟨-, captured, read⟩ :=
    isCaptured_iff ⟨"Repository", "waltuh", [], [], [], []⟩ StubNames.checkMethod
  refine ⟨spelled, fun isCaptured => ?_⟩
  obtain ⟨parameter, listed, kind, meant⟩ := captured.mp isCaptured
  rw [(read spelled).1] at meant
  revert parameter
  decide

/-- A method with a parameter that is named like a function of the language. -/
def panicMethod : Method where
  name := "Find"
  parameters := [⟨"panic", "int"⟩]

theorem isCaptured_panic : IsCaptured ⟨"Repository", "waltuh", [], [], [], []⟩ panicMethod := by
  have spelled : IsSpellable ⟨"Repository", "waltuh", [], [], [], []⟩ panicMethod := by
    decide
  exact ⟨"panic", by decide, (means_iff spelled).mpr (by decide)⟩

end Stub

end Scaffold
