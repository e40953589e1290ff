import Mathlib.Data.List.TakeWhile
import Scaffold.Proofs.Go.Comments
import Scaffold.Proofs.Implementation.Methods
import Scaffold.Proofs.Implementation.PackageNames
import Scaffold.Proofs.Text.Classes

/-!
# Receivers

A method is declared on a named type, for its values or for pointers to them.
The name of the type may stand in parentheses and in front of type arguments; a
scan finds the method where neither is written.
-/

namespace Scaffold

namespace Go

open Text (isBlank)

theorem receiverName_append (blanks : Text) {word : Text} (isWord : IsWord word)
    (blank : ∀ character ∈ blanks, isBlank character = true) :
    FileFacts.receiverName (blanks ++ word) = word := by
  have starless : ∀ character ∈ blanks ++ word, (character == '*') = false := by
    intro character member
    rw [beq_eq_false_iff_ne]
    rintro rfl
    rcases List.mem_append.mp member with early | late
    · exact absurd (blank _ early) (by decide)
    · exact absurd (isWord.word _ late) (by decide)
  have unstarred : (blanks ++ word).dropWhile (· == '*') = blanks ++ word := by
    rw [List.dropWhile_eq_self_iff]
    intro long
    rw [starless _ (List.getElem_mem long)]
    exact Bool.false_ne_true
  have start : Text.trimStart (blanks ++ word) = word := by
    rw [Text.trimStart, List.dropWhile_append_of_pos blank]
    have begins := List.head?_eq_some_head isWord.named
    exact Text.trimStart_of_head?
      (isBlank_of_continuesName (isWord.word _ (List.head_mem isWord.named))) begins
  have ends := List.getLast?_eq_some_getLast isWord.named
  rw [FileFacts.receiverName, unstarred, Text.trim, start]
  exact Text.trimEnd_of_getLast?
    (isBlank_of_continuesName (isWord.word _ (List.getLast_mem isWord.named))) ends

/-! ## Names of types -/

namespace Token

def isName (token : Token) : Bool :=
  token.terminal == .identifier || token.terminal == .allocator

def isMark (mark : Operator) (token : Token) : Bool :=
  token.terminal == .operator mark

theorem isName_iff {token : Token} : token.isName = true ↔ token.terminal.IsName := by
  rw [isName, Bool.or_eq_true, beq_iff_eq, beq_iff_eq, Terminal.IsName]

end Token

namespace Tree

/-- The name of a type, in parentheses or not, with type arguments or without. -/
def typeName? : Tree → Option Text
  | .node .otherType [.leaf name] => if name.isName then some name.text else none
  | .node .otherType [.leaf opening, .node kind inside, .leaf _] =>
    if opening.isMark .openParenthesis then typeName? (.node kind inside) else none
  | .node .otherType (.leaf name :: .leaf bracket :: _) =>
    if name.isName && bracket.isMark .openBracket then some name.text else none
  | _ => none
termination_by structural tree => tree

/-- The name of the type on which a receiver declares a method: the receiver is a
value of the type or a pointer to one. -/
def baseName? : Tree → Option Text
  | .node .parameterType [type] => baseName? type
  | .node .otherType [.leaf star, type] => if star.isMark .star then type.typeName? else none
  | .node .otherType [.leaf opening, .node kind inside, .leaf _] =>
    if opening.isMark .openParenthesis then baseName? (.node kind inside) else none
  | type => type.typeName?
termination_by structural tree => tree

/-- No parentheses and no type arguments are written. -/
def IsPlain (type : Tree) : Prop :=
  ∀ token ∈ type.tokens, token.isMark .openParenthesis = false ∧ token.isMark .openBracket = false

theorem exists_token_of_typeName? {type : Tree} {base : Text} (known : type.typeName? = some base)
    (plain : type.IsPlain) :
    ∃ name, name.terminal.IsName ∧ name.text = base ∧ type.tokens = [name] := by
  unfold typeName? at known
  split at known
  · rename_i name
    obtain ⟨isName, same⟩ := Option.ite_none_right_eq_some.mp known
    exact ⟨name, Token.isName_iff.mp isName, Option.some.inj same, rfl⟩
  · rename_i opening kind inside closing
    obtain ⟨opens, _⟩ := Option.ite_none_right_eq_some.mp known
    have closed := (plain opening List.mem_cons_self).1
    rw [opens] at closed
    exact Bool.noConfusion closed
  · rename_i name bracket arguments
    obtain ⟨both, _⟩ := Option.ite_none_right_eq_some.mp known
    have closed := (plain bracket (List.mem_cons_of_mem _ List.mem_cons_self)).2
    rw [(Bool.and_eq_true_iff.mp both).2] at closed
    exact Bool.noConfusion closed
  · cases known

/-- A plain receiver is a name, behind a star for pointers. -/
theorem exists_tokens_of_baseName? {receiver : Tree} {base : Text} :
    receiver.baseName? = some base → receiver.IsPlain →
      ∃ name, name.terminal.IsName ∧ name.text = base ∧
        (receiver.tokens = [name] ∨
          ∃ star, star.terminal = .operator .star ∧ receiver.tokens = [star, name]) := by
  induction receiver using baseName?.induct with
  | case1 type induction =>
      intro known plain
      have same : (node .parameterType [type]).tokens = type.tokens := List.append_nil _
      rw [IsPlain, same] at plain
      rw [same]
      exact induction known plain
  | case2 star type isStar =>
      intro known plain
      rw [baseName?, if_pos isStar] at known
      have same : (node .otherType [leaf star, type]).tokens = star :: type.tokens := by
        simp [tokens, tokensOfAll]
      rw [IsPlain, same] at plain
      obtain ⟨name, isName, text, only⟩ := exists_token_of_typeName? known fun token member =>
        plain token (List.mem_cons_of_mem _ member)
      exact ⟨name, isName, text, .inr ⟨star, beq_iff_eq.mp isStar, by rw [same, only]⟩⟩
  | case3 star type other =>
      intro known
      rw [baseName?, if_neg other] at known
      cases known
  | case4 opening kind inside closing opens =>
      intro _ plain
      have closed := (plain opening List.mem_cons_self).1
      rw [opens] at closed
      exact Bool.noConfusion closed
  | case5 opening kind inside closing other =>
      intro known
      rw [baseName?, if_neg other] at known
      cases known
  | case6 type one two three =>
      intro known plain
      rw [baseName?] at known
      · obtain ⟨name, isName, text, only⟩ := exists_token_of_typeName? known plain
        exact ⟨name, isName, text, .inl only⟩
      · exact one
      · exact two
      · exact three

/-- In a plain receiver the name of the type comes last, and nothing else is left
without the star. -/
theorem receiverName_of_isPlain {source : Text} {tokens : List Token} {receiver : Tree}
    {base : Text} (cut : tokens? source = some tokens) (order : receiver.tokens.Sublist tokens)
    (known : receiver.baseName? = some base) (plain : receiver.IsPlain) :
    IsWord base ∧ FileFacts.receiverName receiver.code = base ∧ base <:+ receiver.text := by
  obtain ⟨name, isName, rfl, alone | ⟨star, isStar, both⟩⟩ :=
    exists_tokens_of_baseName? known plain
  · have isWord := isWord_of_mem_tokens cut (order.subset (by simp [alone])) isName
    have code : receiver.code = name.text := by simp [code, alone]
    refine ⟨isWord, ?_, ?_⟩
    · rw [code]
      exact receiverName_append [] isWord (by simp)
    · simp [text, alone]
  · have isWord := isWord_of_mem_tokens cut (order.subset (by simp [both])) isName
    have behind : name ∈ tokens.tail := by
      have later := order.tail
      rw [both] at later
      exact later.subset List.mem_cons_self
    have spelled : star.text = ['*'] := by
      have single : ∀ entry ∈ operators, entry.2 = .star → entry.1 = ['*'] := by decide
      exact single _ (mem_operators_of_mem_tokens cut (order.subset (by simp [both])) isStar) rfl
    have code : receiver.code = '*' :: (name.lead.flatMap Trivia.code ++ name.text) := by
      simp [code, both, spelled, Token.fullCode]
    refine ⟨isWord, ?_, ?_⟩
    · rw [code]
      exact receiverName_append _ isWord (isBlank_of_mem_lead cut behind)
    · refine ⟨star.text ++ name.lead.flatMap Trivia.text, ?_⟩
      simp [text, both, Token.fullText]

end Tree

/-! ## Methods that are declared -/

/-- The type on which a declaration declares a method, and the name of the method.
There is one receiver. -/
def declaredMethods (declaration : Tree) : List (Text × Text) :=
  match receivers declaration with
  | [receiver] =>
    match receiver.baseName? with
    | some base => (declaration.parts .name).map fun name => (base, name.code)
    | none => []
  | _ => []

theorem mem_declaredMethods {declaration : Tree} {type name : Text} :
    (type, name) ∈ declaredMethods declaration ↔
      ∃ receiver, receivers declaration = [receiver] ∧ receiver.baseName? = some type ∧
        name ∈ (declaration.parts .name).map Tree.code := by
  unfold declaredMethods
  split
  · rename_i receiver only
    cases base : receiver.baseName? with
    | none => simp [only, base]
    | some other =>
        simp only [only, List.mem_map, Prod.mk.injEq]
        constructor
        · rintro ⟨tree, part, rfl, rfl⟩
          exact ⟨receiver, rfl, base, tree, part, rfl⟩
        · rintro ⟨_, same, known, tree, part, rfl⟩
          obtain rfl := List.singleton_inj.mp same
          exact ⟨tree, part, Option.some.inj (base.symm.trans known), rfl⟩
  · rename_i others
    constructor
    · exact fun nothing => absurd nothing List.not_mem_nil
    · rintro ⟨receiver, only, _⟩
      exact absurd only (others receiver)

namespace SourceFile

variable {source : Text} {file : SourceFile} {declaration : Tree} {type name : Text}

/-- A method with a plain receiver is shown on the type on which it is declared. -/
theorem showsMethod_of_isPlain (known : ofText? source = some file)
    (member : declaration ∈ file.topLevel .methodDeclaration)
    (declared : (type, name) ∈ declaredMethods declaration)
    (plain : ∀ receiver ∈ receivers declaration, receiver.IsPlain)
    (ends : Text.endsWith Contract.backingSuffix type = true) :
    ShowsMethod declaration type name := by
  obtain ⟨tokens, cut, _, result⟩ := file.exists_read known
  have whole := Rule.tokens_of_read _ result
  rw [List.append_nil] at whole
  obtain ⟨receiver, only, base, named⟩ := mem_declaredMethods.mp declared
  have order : receiver.tokens.Sublist tokens := by
    have inside := tokensOfAll_receivers_sublist declaration
    rw [only, Tree.tokensOfAll, Tree.tokensOfAll, List.append_nil] at inside
    have outside := Tree.tokensOfAll_sublist
      (List.singleton_sublist.mpr (List.mem_filter.mp member).1)
    rw [Tree.tokensOfAll, Tree.tokensOfAll, List.append_nil, whole] at outside
    exact inside.trans ((declaration.tokensOfAll_parts_sublist _).trans outside)
  obtain ⟨isWord, code, last⟩ := Tree.receiverName_of_isPlain cut order base
    (plain receiver (by simp [only]))
  have kept : Text.endsWith Contract.backingSuffix receiver.text = true :=
    List.isSuffixOf_iff_suffix.mpr ((List.isSuffixOf_iff_suffix.mp ends).trans last)
  have captured : receiverTypes declaration = [receiver] := by
    rw [receiverTypes_eq, only, List.filter_eq_self]
    exact List.forall_mem_singleton.mpr kept
  refine ⟨isWord.named, ?_, named⟩
  rw [shownOn?, captured]
  exact congrArg some code

end SourceFile

end Go

end Scaffold
