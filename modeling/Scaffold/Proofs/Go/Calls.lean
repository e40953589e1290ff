import Scaffold.Proofs.Go.ImportSection
import Scaffold.Proofs.Go.Items
import Scaffold.Proofs.Go.Refusal

/-!
# How a call with listed arguments is read

A variable that is declared with a call at the end of a file is read, whatever
names are listed as the arguments of the call, as long as each of them is a name
or a name behind that of its package.
-/

namespace Scaffold

namespace Go

open Grammar Rule

/-! ## Tokens of a call -/

/-- The kinds of the tokens in the declaration of a variable with a call. -/
def Terminal.isInCall : Terminal → Bool
  | .identifier | .allocator | .keyword .varWord | .finish => true
  | .operator mark =>
    mark == .assign || mark == .dot || mark == .comma || mark == .openParenthesis ||
      mark == .closeParenthesis
  | _ => false

/-- A name, or a name behind that of its package and a dot on the same line. -/
inductive IsReference : List Token → Prop where
  | own {name : Token} (isName : name.terminal.IsName) : IsReference [name]
  | selected {package dot name : Token} (isPackage : package.terminal.IsName)
      (isDot : dot.terminal = .operator .dot) (together : dot.onNewLine = false)
      (isName : name.terminal.IsName) : IsReference [package, dot, name]

/-- References with a comma behind each. -/
inductive IsArguments : List Token → Prop where
  | nil : IsArguments []
  | cons {reference : List Token} {comma : Token} {rest : List Token}
      (isReference : IsReference reference) (isComma : comma.terminal = .operator .comma)
      (later : IsArguments rest) : IsArguments (reference ++ comma :: rest)

/-- All tokens are of kinds that occur in a call. -/
def AreInCall (tokens : List Token) : Prop :=
  ∀ token ∈ tokens, token.terminal.isInCall = true

variable {layout : Layout} {head name dot stop : Token} {tokens rest : List Token}

theorem isInCall_of_isName {terminal : Terminal} (isName : terminal.IsName) :
    terminal.isInCall = true := by
  rcases isName with rfl | rfl <;> rfl

theorem areInCall_cons :
    AreInCall (head :: rest) ↔ head.terminal.isInCall = true ∧ AreInCall rest :=
  List.forall_mem_cons

theorem areInCall_append {others : List Token} :
    AreInCall (tokens ++ others) ↔ AreInCall tokens ∧ AreInCall others :=
  List.forall_mem_append

theorem IsReference.areInCall (isReference : IsReference tokens) : AreInCall tokens := by
  cases isReference with
  | own isName => exact List.forall_mem_singleton.mpr (isInCall_of_isName isName)
  | selected isPackage isDot _ isName =>
      refine areInCall_cons.mpr ⟨isInCall_of_isName isPackage, areInCall_cons.mpr ⟨?_, ?_⟩⟩
      · rw [isDot]
        rfl
      · exact List.forall_mem_singleton.mpr (isInCall_of_isName isName)

theorem IsArguments.areInCall (isArguments : IsArguments tokens) : AreInCall tokens := by
  induction isArguments with
  | nil => exact List.forall_mem_nil _
  | cons isReference isComma _ induction =>
      refine areInCall_append.mpr ⟨isReference.areInCall, areInCall_cons.mpr ⟨?_, induction⟩⟩
      rw [isComma]
      rfl

/-! ## Expressions -/

theorem parse_name_eq_none {rule : Rule Phrase}
    (refused : refuses table Terminal.isInCall 40 (fun terminal => decide terminal.IsName) rule =
      true) (isName : name.terminal.IsName) (all : AreInCall (name :: rest)) :
    parse layout rule (name :: rest) = none := by
  refine parse_eq_none_of_refuses 40 refused all ?_
  rintro _ ⟨⟩
  exact decide_eq_true isName

theorem parse_kind_eq_none {rule : Rule Phrase} {terminal : Terminal}
    (refused : refuses table (fun _ => true) 60 (· == terminal) rule = true)
    (isKind : head.terminal = terminal) : parse layout rule (head :: rest) = none := by
  refine parse_eq_none_of_refuses 60 refused (fun _ _ => rfl) ?_
  rintro _ ⟨⟩
  exact beq_iff_eq.mpr isKind

/-- What may stand behind a reference. -/
def EndsReference (terminal : Terminal) : Prop :=
  terminal = .operator .dot ∨ terminal = .operator .comma

theorem parse_allocation_eq_none (ends : EndsReference stop.terminal) :
    parse layout allocation (name :: stop :: rest) = none := by
  have shape : allocation = both (token .allocator) (parenthesised (maybe
      (seq [refer .typePhrase, many (seq [mark .comma, refer .expression]),
        maybe (mark .comma)]))) := rfl
  have none : parse layout (parenthesised (maybe
      (seq [refer .typePhrase, many (seq [mark .comma, refer .expression]),
        maybe (mark .comma)]))) (stop :: rest) = none := by
    rcases ends with dot | comma
    · exact parse_kind_eq_none (by decide) dot
    · exact parse_kind_eq_none (by decide) comma
  rw [shape, parse_both (by decide), parse_token_cons]
  split
  · rw [Option.bind_some, none, Option.map_none]
  · rfl

theorem leaves_identifier (isName : name.terminal.IsName) :
    Leaves layout identifier (name :: rest) rest :=
  ⟨[.leaf name], by rw [parse_identifier_cons, if_pos isName]⟩

theorem leaves_operand (isName : name.terminal.IsName) (ends : EndsReference stop.terminal)
    (all : AreInCall (name :: stop :: rest)) :
    Leaves layout (refer .operand) (name :: stop :: rest) (stop :: rest) := by
  have other {rule : Rule Phrase}
      (refused : refuses table Terminal.isInCall 40 (fun terminal => decide terminal.IsName) rule =
        true) : parse layout rule (name :: stop :: rest) = none :=
    parse_name_eq_none refused isName all
  refine .refer (.right (other (by decide)) ?_)
  refine .right (other (by decide)) ?_
  refine .right (other (by decide)) ?_
  refine .right (other (by decide)) ?_
  refine .right (other (by decide)) ?_
  refine .right (parse_allocation_eq_none ends) ?_
  exact .left (leaves_identifier isName)

theorem leaves_selector (isDot : dot.terminal = .operator .dot) (together : dot.onNewLine = false)
    (isName : name.terminal.IsName) :
    Leaves layout (refer .suffix) (dot :: name :: rest) rest := by
  refine .refer (.left ?_)
  exact .both (leaves_sameLine together)
    (.both (leaves_token isDot) (.left (leaves_identifier isName)))

/-- What may stand behind an expression. -/
def EndsExpression (terminal : Terminal) : Prop :=
  terminal = .operator .comma ∨ terminal = .finish

theorem parse_end_eq_none {rule : Rule Phrase}
    (refused : refuses table (fun _ => true) 40
      (fun terminal => terminal == .operator .comma || terminal == .finish) rule = true)
    (ends : EndsExpression stop.terminal) : parse layout rule (stop :: rest) = none := by
  refine parse_eq_none_of_refuses 40 refused (fun _ _ => rfl) ?_
  rintro _ ⟨⟩
  rcases ends with comma | finish
  · simp [comma]
  · simp [finish]

theorem leaves_suffixes_end (ends : EndsExpression stop.terminal) :
    Leaves layout (many (refer .suffix)) (stop :: rest) (stop :: rest) :=
  .many_nil (parse_end_eq_none (by decide) ends)

/-- A name with what belongs to it is an expression. -/
theorem leaves_expression {others : List Token} (isName : name.terminal.IsName)
    (all : AreInCall (name :: tokens))
    (operand : Leaves layout (refer .operand) (name :: tokens) others)
    (suffixes : Leaves layout (many (refer .suffix)) others (stop :: rest))
    (ends : EndsExpression stop.terminal) :
    Leaves layout (refer .expression) (name :: tokens) (stop :: rest) := by
  have unary : Leaves layout (refer .unary) (name :: tokens) (stop :: rest) :=
    .refer (.right (parse_name_eq_none (by decide) isName all) (.both operand suffixes))
  exact .refer (.both unary (.many_nil (parse_end_eq_none (by decide) ends)))

theorem leaves_reference (isReference : IsReference tokens)
    (isComma : stop.terminal = .operator .comma) (all : AreInCall (tokens ++ stop :: rest)) :
    Leaves layout (refer .expression) (tokens ++ stop :: rest) (stop :: rest) := by
  cases isReference with
  | own isName =>
      exact leaves_expression isName all (leaves_operand isName (.inr isComma) all)
        (leaves_suffixes_end (.inl isComma)) (.inl isComma)
  | selected isPackage isDot together isName =>
      exact leaves_expression isPackage all (leaves_operand isPackage (.inl isDot) all)
        (.many_cons (leaves_selector isDot together isName) (leaves_suffixes_end (.inl isComma)))
        (.inl isComma)

/-! ## Arguments -/

/-- An argument, which may be spread. -/
def argument : Rule Phrase :=
  both (refer .expression) (maybe (mark .ellipsis))

theorem leaves_argument (isReference : IsReference tokens)
    (isComma : stop.terminal = .operator .comma) (all : AreInCall (tokens ++ stop :: rest)) :
    Leaves layout argument (tokens ++ stop :: rest) (stop :: rest) :=
  .both (leaves_reference isReference isComma all)
    (.right (parse_kind_eq_none (by decide) isComma) leaves_empty)

variable {closing comma : Token} {arguments : List Token}

theorem parse_argument_closing (isClosing : closing.terminal = .operator .closeParenthesis) :
    parse layout argument (closing :: rest) = none :=
  parse_kind_eq_none (by decide) isClosing

/-- Behind an argument others follow up to the last comma. -/
theorem exists_leaves_more (isArguments : IsArguments arguments)
    (isClosing : closing.terminal = .operator .closeParenthesis)
    (all : AreInCall (arguments ++ closing :: rest)) :
    ∀ {comma : Token}, comma.terminal = .operator .comma →
      ∃ last : Token, last.terminal = .operator .comma ∧
        Leaves layout (many (both (mark .comma) argument)) (comma :: (arguments ++ closing :: rest))
          (last :: closing :: rest) := by
  induction isArguments with
  | nil =>
      intro comma isComma
      refine ⟨comma, isComma, .many_nil ?_⟩
      rw [List.nil_append, parse_both (by decide), mark, parse_token_cons, if_pos isComma,
        Option.bind_some, parse_argument_closing isClosing, Option.map_none]
  | @cons reference next others isReference isNext _ induction =>
      intro comma isComma
      rw [List.append_assoc, List.cons_append] at all ⊢
      obtain ⟨last, isLast, leaves⟩ :=
        induction (areInCall_cons.mp (areInCall_append.mp all).2).2 isNext
      exact ⟨last, isLast,
        .many_cons (.both (leaves_token isComma) (leaves_argument isReference isNext all)) leaves⟩

theorem leaves_arguments {opening : Token} (isArguments : IsArguments arguments)
    (isOpening : opening.terminal = .operator .openParenthesis)
    (isClosing : closing.terminal = .operator .closeParenthesis)
    (all : AreInCall (arguments ++ closing :: rest)) :
    Leaves layout (refer .arguments) (opening :: (arguments ++ closing :: rest)) rest := by
  suffices inner : Leaves .flowing (maybe (listed argument)) (arguments ++ closing :: rest)
      (closing :: rest) from
    .refer (.both (leaves_token isOpening) (.both (.under inner) (leaves_token isClosing)))
  cases isArguments with
  | nil =>
      exact .right (parse_kind_eq_none (by decide) isClosing) leaves_empty
  | @cons reference next others isReference isNext later =>
      rw [List.append_assoc, List.cons_append] at all ⊢
      obtain ⟨last, isLast, leaves⟩ := exists_leaves_more later isClosing
        (areInCall_cons.mp (areInCall_append.mp all).2).2 isNext
      exact .left (.both (.both (leaves_argument isReference isNext all) leaves)
        (.left (leaves_token isLast)))

/-- A call of a function of another package. -/
inductive IsCall : List Token → Prop where
  | call {package dot function opening closing : Token} {arguments : List Token}
      (isPackage : package.terminal.IsName) (isDot : dot.terminal = .operator .dot)
      (selects : dot.onNewLine = false) (isFunction : function.terminal.IsName)
      (isOpening : opening.terminal = .operator .openParenthesis)
      (calls : opening.onNewLine = false) (isArguments : IsArguments arguments)
      (isClosing : closing.terminal = .operator .closeParenthesis) :
      IsCall (package :: dot :: function :: opening :: (arguments ++ [closing]))

theorem IsCall.areInCall (isCall : IsCall tokens) : AreInCall tokens := by
  cases isCall with
  | call isPackage isDot _ isFunction isOpening _ isArguments isClosing =>
      simp only [areInCall_cons, areInCall_append, isArguments.areInCall,
        isInCall_of_isName isPackage, isInCall_of_isName isFunction, isDot, isOpening, isClosing,
        true_and]
      exact ⟨rfl, rfl, rfl, List.forall_mem_nil _⟩

theorem leaves_call (isCall : IsCall tokens) (ends : EndsExpression stop.terminal)
    (all : AreInCall (tokens ++ stop :: rest)) :
    Leaves layout (refer .expression) (tokens ++ stop :: rest) (stop :: rest) := by
  cases isCall with
  | @call package dot function opening closing arguments isPackage isDot selects isFunction
      isOpening calls isArguments isClosing =>
      have line : package :: dot :: function :: opening :: (arguments ++ [closing]) ++ stop :: rest =
          package :: dot :: function :: opening :: (arguments ++ closing :: stop :: rest) := by
        simp
      rw [line] at all ⊢
      have call : Leaves layout (refer .suffix) (opening :: (arguments ++ closing :: stop :: rest))
          (stop :: rest) := by
        refine .refer (.right ?_ (.right ?_ ?_))
        · exact parse_kind_eq_none (by decide) isOpening
        · exact parse_kind_eq_none (by decide) isOpening
        · refine .both (leaves_sameLine calls) (leaves_arguments isArguments isOpening isClosing ?_)
          simp only [areInCall_cons] at all
          exact all.2.2.2.2
      exact leaves_expression isPackage all (leaves_operand isPackage (.inl isDot) all)
        (.many_cons (leaves_selector isDot selects isFunction)
          (.many_cons call (leaves_suffixes_end ends))) ends

/-! ## The declaration -/

/-- A variable that is declared with a call on new lines, up to the end of the file. -/
inductive IsCallDeclaration : List Token → Prop where
  | declared {word target assign finish : Token} {call : List Token}
      (isWord : word.terminal = .keyword .varWord) (begins : word.onNewLine = true)
      (isTarget : target.terminal.IsName)
      (isAssign : assign.terminal = .operator .assign) (isCall : IsCall call)
      (ends : finish.terminal = .finish) (apart : finish.onNewLine = true) :
      IsCallDeclaration (word :: target :: assign :: (call ++ [finish]))

theorem IsCallDeclaration.areInCall (isDeclaration : IsCallDeclaration tokens) :
    AreInCall tokens := by
  cases isDeclaration with
  | declared isWord _ isTarget isAssign isCall ends _ =>
      simp only [areInCall_cons, areInCall_append, isCall.areInCall, isInCall_of_isName isTarget,
        isWord, isAssign, ends, true_and]
      exact ⟨rfl, rfl, rfl, List.forall_mem_nil _⟩

/-- A call is the value of a variable. -/
theorem leaves_varSpec {target assign finish : Token} {call : List Token}
    (isTarget : target.terminal.IsName) (isAssign : assign.terminal = .operator .assign)
    (isCall : IsCall call) (ends : finish.terminal = .finish)
    (all : AreInCall (call ++ [finish])) :
    Leaves layout (refer .varSpec) (target :: assign :: (call ++ [finish])) [finish] := by
  have ended : EndsExpression finish.terminal := .inr ends
  have values : Leaves layout (refer .expressions) (call ++ [finish]) [finish] := by
    exact .refer (.both (leaves_call isCall ended all)
      (.many_nil (parse_kind_eq_none (by decide) ends)))
  refine .refer (.both (.both (leaves_identifier isTarget) (.many_nil ?_)) (.right ?_ ?_))
  · exact parse_kind_eq_none (by decide) isAssign
  · exact parse_kind_eq_none (by decide) isAssign
  · exact .both (leaves_token isAssign) values

namespace SourceFile

theorem items?_finish {finish : Token} (ends : finish.terminal = .finish) :
    items? [finish] = some [.leaf finish] := by
  have none : parse .lines (refer .topLevel) [finish] = none :=
    parse_kind_eq_none (by decide) ends
  rw [items?_eq, parse_many (by decide), none]
  exact if_pos ends

/-- The declaration is the rest of a file, behind whatever stands on the lines before. -/
theorem exists_items?_of_isCallDeclaration (isDeclaration : IsCallDeclaration tokens) :
    ∃ items, items? tokens = some items ∧ after? tokens = some items := by
  have all := isDeclaration.areInCall
  cases isDeclaration with
  | @declared word target assign finish call isWord begins isTarget isAssign isCall ends apart =>
      have other {rule : Rule Phrase}
          (refused : refuses table Terminal.isInCall 40 (· == .keyword .varWord) rule = true) :
          parse .lines rule (word :: target :: assign :: (call ++ [finish])) = none := by
        refine parse_eq_none_of_refuses 40 refused all ?_
        rintro _ ⟨⟩
        exact beq_iff_eq.mpr isWord
      have behind := (areInCall_cons.mp all).2
      have spec :
          Leaves .lines (refer .varSpec) (target :: assign :: (call ++ [finish])) [finish] :=
        leaves_varSpec isTarget isAssign isCall ends
          (areInCall_cons.mp (areInCall_cons.mp behind).2).2
      have declaration : Leaves .lines (varDeclaration .varSpec)
          (word :: target :: assign :: (call ++ [finish])) [finish] :=
        .group .varDeclaration (.both (leaves_token isWord)
          (.right (parse_name_eq_none (by decide) isTarget behind) spec))
      have statement : Leaves .lines (refer .statement)
          (word :: target :: assign :: (call ++ [finish])) [finish] :=
        .refer (.right (other (by decide)) (.right (other (by decide)) (.left declaration)))
      have first : Leaves .lines (refer .topLevel)
          (word :: target :: assign :: (call ++ [finish])) [finish] :=
        .refer (.left (.both (.right (other (by decide)) statement)
          (.left (leaves_newLine apart))))
      obtain ⟨trees, read⟩ := first
      have whole := items?_of_topLevel read
      rw [items?_finish ends, Option.map_some] at whole
      exact ⟨_, whole, by rw [after?, if_pos begins, whole]⟩

end SourceFile

end Go

end Scaffold
