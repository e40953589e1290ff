import Scaffold.Go.Capture
import Scaffold.Proofs.Contract.Names
import Scaffold.Proofs.Go.Ordering

/-!
# Method declarations

A method declaration is the word that opens it, its receiver, its name and its
signature.  Neither another receiver nor another name stands directly in it, so
the receiver types of a method start before its name and behind everything that
earlier methods show.
-/

namespace Scaffold

namespace Go

namespace Rule

variable {Name : Type} {grammar : Name → Rule Name}

theorem read_group_eq_some {fuel : Nat} {layout : Layout} {kind : Kind} {body : Rule Name}
    {tokens rest : List Token} {trees : List Tree} :
    read grammar (fuel + 1) layout (group kind body) tokens = some (trees, rest) ↔
      ∃ children, read grammar fuel layout body tokens = some (children, rest) ∧
        trees = [.node kind children] := by
  rw [read]
  cases read grammar fuel layout body tokens with
  | none => simp
  | some found => simp [Prod.ext_iff, and_comm, eq_comm]

/-- The rule may put a construct of a kind next to others, if the named rules
that do so are known. -/
def mayYield (kind : Kind) (known : Name → Bool) : Rule Name → Bool
  | both first second => mayYield kind known first || mayYield kind known second
  | either first second => mayYield kind known first || mayYield kind known second
  | many item => mayYield kind known item
  | group own _ => own == kind
  | refer name => known name
  | under _ body => mayYield kind known body
  | _ => false

theorem mayYield_of_read {kind : Kind} {known : Name → Bool}
    (closed : ∀ name, mayYield kind known (grammar name) = true → known name = true) :
    ∀ (fuel : Nat) {layout : Layout} {rule : Rule Name} {tokens rest : List Token}
      {trees : List Tree}, read grammar fuel layout rule tokens = some (trees, rest) →
        ∀ tree ∈ trees, tree.isA kind = true → mayYield kind known rule = true := by
  intro fuel
  induction fuel with
  | zero => simp [read]
  | succ fuel induction =>
      intro layout rule tokens rest trees result tree member isA
      cases rule with
      | both first second =>
          obtain ⟨front, middle, back, one, two, rfl⟩ := read_both_eq_some.mp result
          rw [mayYield, Bool.or_eq_true]
          rcases List.mem_append.mp member with early | late
          · exact .inl (induction one tree early isA)
          · exact .inr (induction two tree late isA)
      | either first second =>
          rw [mayYield, Bool.or_eq_true]
          rw [read] at result
          split at result
          · exact .inr (induction result tree member isA)
          · rename_i found one
            rw [result] at one
            exact .inl (induction one tree member isA)
      | many item =>
          rw [mayYield]
          rw [read] at result
          split at result
          · cases result
            exact absurd member List.not_mem_nil
          · rename_i front middle one
            split at result
            · cases result
            · rename_i back last two
              cases result
              rcases List.mem_append.mp member with early | late
              · exact induction one tree early isA
              · have more := induction two tree late isA
                rwa [mayYield] at more
      | group own body =>
          obtain ⟨children, _, rfl⟩ := read_group_eq_some.mp result
          rw [List.mem_singleton.mp member] at isA
          simpa [mayYield, Tree.isA, Tree.kind?] using isA
      | refer name => exact closed name (induction (by rwa [read] at result) tree member isA)
      | under inner body =>
          rw [read] at result
          rw [mayYield]
          exact induction result tree member isA
      | token terminal =>
          obtain ⟨head, rfl, _, rfl⟩ := read_token_eq_some.mp result
          rw [List.mem_singleton.mp member] at isA
          simp [Tree.isA, Tree.kind?] at isA
      | empty | ahead | notBefore | sameLine | newLine | outsideHeader =>
          rw [(eq_nil_of_read rfl result).1] at member
          exact absurd member List.not_mem_nil

/-- No construct of a kind stands directly among the trees. -/
theorem filter_isA_of_read {kind : Kind} {known : Name → Bool}
    (closed : ∀ name, mayYield kind known (grammar name) = true → known name = true)
    {fuel : Nat} {layout : Layout} {rule : Rule Name} {tokens rest : List Token}
    {trees : List Tree} (never : mayYield kind known rule = false)
    (result : read grammar fuel layout rule tokens = some (trees, rest)) :
    trees.filter (Tree.isA kind) = [] := by
  rw [List.filter_eq_nil_iff]
  intro tree member isA
  rw [mayYield_of_read closed fuel result tree member isA] at never
  exact Bool.noConfusion never

end Rule

namespace Grammar

open Rule

/-- What a method declaration is made of. -/
def methodBody : Rule Phrase :=
  both (word .funcWord)
    (both (group .receiver (refer .parameters)) (both (group .name identifier) signature))

theorem methodBody_of_mem_groups (phrase : Phrase) :
    ∀ entry ∈ groups (table phrase), entry.1 = .methodDeclaration → entry.2 = methodBody := by
  cases phrase <;> decide

theorem methodBody_of_mem_groups_file :
    ∀ entry ∈ groups file, entry.1 = .methodDeclaration → entry.2 = methodBody := by
  decide

/-- The phrases that are constructs of their own. -/
def isOpen : Phrase → Bool
  | .parameters | .result | .block => false
  | _ => true

theorem isOpen_of_mayYield_name (phrase : Phrase) :
    mayYield .name isOpen (table phrase) = true → isOpen phrase = true := by
  cases phrase <;> decide

theorem isOpen_of_mayYield_receiver (phrase : Phrase) :
    mayYield .receiver isOpen (table phrase) = true → isOpen phrase = true := by
  cases phrase <;> decide

end Grammar

open Grammar Rule

/-- A method declaration: behind its receiver and its name neither comes again. -/
structure IsMethod (declaration : Tree) (opening : Token) (receiver : List Tree) (name : Token)
    (signature : List Tree) : Prop where
  eq : declaration = .node .methodDeclaration
    (.leaf opening :: .node .receiver receiver :: .node .name [.leaf name] :: signature)
  isName : name.terminal.IsName
  noName : signature.filter (Tree.isA .name) = []
  noReceiver : signature.filter (Tree.isA .receiver) = []

theorem exists_isMethod_of_read {fuel : Nat} {layout : Layout} {tokens rest : List Token}
    {children : List Tree}
    (result : Rule.read table fuel layout methodBody tokens = some (children, rest)) :
    ∃ opening receiver name signature,
      IsMethod (.node .methodDeclaration children) opening receiver name signature := by
  obtain _ | fuel := fuel
  · simp [Rule.read] at result
  obtain ⟨_, _, _, word, afterWord, rfl⟩ := read_both_eq_some.mp result
  obtain _ | fuel := fuel
  · simp [Rule.read] at word
  obtain ⟨opening, _, _, rfl⟩ := read_token_eq_some.mp word
  obtain ⟨_, _, _, received, afterReceiver, rfl⟩ := read_both_eq_some.mp afterWord
  obtain _ | fuel := fuel
  · simp [Rule.read] at received
  obtain ⟨receiver, _, rfl⟩ := read_group_eq_some.mp received
  obtain ⟨_, _, signature, named, afterName, rfl⟩ := read_both_eq_some.mp afterReceiver
  obtain _ | fuel := fuel
  · simp [Rule.read] at named
  obtain ⟨children, read, rfl⟩ := read_group_eq_some.mp named
  obtain ⟨name, rfl, isName⟩ := exists_token_of_read_identifier read
  exact ⟨opening, receiver, name, signature, rfl, isName,
    filter_isA_of_read isOpen_of_mayYield_name (by decide) afterName,
    filter_isA_of_read isOpen_of_mayYield_receiver (by decide) afterName⟩

/-- The types of all receivers of a method. -/
def receivers (declaration : Tree) : List Tree :=
  (((declaration.parts .receiver).flatMap (Tree.parts .parameterList)).flatMap
    (Tree.parts .parameter)).flatMap (Tree.parts .parameterType)

theorem receiverTypes_eq (declaration : Tree) :
    SourceFile.receiverTypes declaration = (receivers declaration).filter fun type =>
      Text.endsWith Contract.backingSuffix type.text := by
  rw [receivers, List.filter_flatMap]
  rfl

theorem tokensOfAll_receivers_sublist (declaration : Tree) :
    (Tree.tokensOfAll (receivers declaration)).Sublist
      (Tree.tokensOfAll (declaration.parts .receiver)) :=
  (Tree.tokensOfAll_flatMap_sublist fun tree _ => tree.tokensOfAll_parts_sublist _).trans
    ((Tree.tokensOfAll_flatMap_sublist fun tree _ => tree.tokensOfAll_parts_sublist _).trans
      (Tree.tokensOfAll_flatMap_sublist fun tree _ => tree.tokensOfAll_parts_sublist _))

/-- What is captured of a method on a backing type: the types of its receivers and
its name. -/
def captured (declaration : Tree) : List Tree :=
  if SourceFile.receiverTypes declaration = [] then []
  else SourceFile.receiverTypes declaration ++ declaration.parts .name

theorem map_start_backingMethodCaptures (declaration : Tree) :
    (SourceFile.backingMethodCaptures declaration).map Capture.start =
      (captured declaration).map Tree.start := by
  unfold SourceFile.backingMethodCaptures captured
  split
  · rename_i none
    rw [if_pos none]
    rfl
  · rename_i some
    rw [if_neg some, List.map_append, List.map_append, List.map_map, List.map_map]
    rfl

namespace IsMethod

variable {declaration : Tree} {opening name : Token} {receiver signature : List Tree}

theorem parts_name (isMethod : IsMethod declaration opening receiver name signature) :
    declaration.parts .name = [.node .name [.leaf name]] := by
  rw [isMethod.eq, Tree.parts, Tree.children, List.filter_cons_of_neg (by simp [Tree.isA, Tree.kind?]),
    List.filter_cons_of_neg (by simp [Tree.isA, Tree.kind?]),
    List.filter_cons_of_pos (by simp [Tree.isA, Tree.kind?]), isMethod.noName]

theorem parts_receiver (isMethod : IsMethod declaration opening receiver name signature) :
    declaration.parts .receiver = [.node .receiver receiver] := by
  rw [isMethod.eq, Tree.parts, Tree.children, List.filter_cons_of_neg (by simp [Tree.isA, Tree.kind?]),
    List.filter_cons_of_pos (by simp [Tree.isA, Tree.kind?]),
    List.filter_cons_of_neg (by simp [Tree.isA, Tree.kind?]), isMethod.noReceiver]

theorem tokensOfAll_captured_sublist
    (isMethod : IsMethod declaration opening receiver name signature) :
    (Tree.tokensOfAll (captured declaration)).Sublist declaration.tokens := by
  unfold captured
  split
  · exact List.nil_sublist _
  · have types : (Tree.tokensOfAll (SourceFile.receiverTypes declaration)).Sublist
        (Tree.tokensOfAll (declaration.parts .receiver)) := by
      rw [receiverTypes_eq]
      exact (Tree.tokensOfAll_sublist List.filter_sublist).trans
        (tokensOfAll_receivers_sublist declaration)
    rw [Tree.tokensOfAll_append]
    refine (types.append_right _).trans ?_
    rw [isMethod.parts_receiver, isMethod.parts_name, isMethod.eq, ← Tree.tokensOfAll_append]
    rw [Tree.tokens]
    exact Tree.tokensOfAll_sublist (by simp)

end IsMethod

namespace SourceFile

variable {source : Text} {file : SourceFile}

theorem exists_isMethod (known : ofText? source = some file) {declaration : Tree}
    (member : declaration ∈ file.topLevel .methodDeclaration) :
    ∃ opening receiver name signature, IsMethod declaration opening receiver name signature := by
  obtain ⟨listed, isA⟩ := List.mem_filter.mp member
  cases declaration with
  | leaf token => simp [Tree.isA, Tree.kind?] at isA
  | node kind children =>
      have same : kind = .methodDeclaration := by simpa [Tree.isA, Tree.kind?] using isA
      subst same
      obtain ⟨tokens, _, _, result⟩ := file.exists_read known
      have inside : Tree.node .methodDeclaration children ∈ Tree.subtreesOfAll file.items :=
        Tree.mem_subtreesOfAll.mpr ⟨_, listed, Tree.mem_subtrees_self _⟩
      obtain ⟨body, isBody, _, _, _, _, read⟩ := isReadBy_of_read
        (fun kind body => kind = .methodDeclaration → body = methodBody)
        methodBody_of_mem_groups _ methodBody_of_mem_groups_file result _ _ inside
      rw [isBody rfl] at read
      exact exists_isMethod_of_read read

/-- The captures of methods stand in the order of the source. -/
theorem pairwise_start_methodCaptures (known : ofText? source = some file) :
    ((file.topLevel .methodDeclaration).flatMap backingMethodCaptures).Pairwise
      fun left right => left.start < right.start := by
  obtain ⟨tokens, cut, _, result⟩ := file.exists_read known
  have whole := Rule.tokens_of_read _ result
  rw [List.append_nil] at whole
  have methods : (Tree.tokensOfAll (file.topLevel .methodDeclaration)).Sublist tokens :=
    whole ▸ Tree.tokensOfAll_sublist List.filter_sublist
  have ascends : Ascends (Tree.tokensOfAll
      ((file.topLevel .methodDeclaration).flatMap captured)) := by
    refine (ascends_of_tokens? cut).sublist (List.Sublist.trans ?_ methods)
    apply Tree.tokensOfAll_flatMap_sublist
    intro declaration member
    obtain ⟨_, _, _, _, isMethod⟩ := exists_isMethod known member
    exact isMethod.tokensOfAll_captured_sublist
  have filled : ∀ tree ∈ (file.topLevel .methodDeclaration).flatMap captured,
      tree.tokens ≠ [] := by
    intro tree inside
    obtain ⟨declaration, member, taken⟩ := List.mem_flatMap.mp inside
    unfold captured at taken
    split at taken
    · exact absurd taken List.not_mem_nil
    · rcases List.mem_append.mp taken with type | named
      · rw [receiverTypes_eq] at type
        intro empty
        have text : tree.text = [] := by rw [Tree.text, empty]
        have ends := (List.mem_filter.mp type).2
        rw [text] at ends
        exact absurd ends (by decide)
      · obtain ⟨_, _, name, _, isMethod⟩ := exists_isMethod known member
        rw [isMethod.parts_name, List.mem_singleton] at named
        rw [named]
        exact List.cons_ne_nil name []
  have starts := List.pairwise_map.mpr (Tree.pairwise_start ascends filled)
  rw [List.map_flatMap, ← List.flatMap_congr fun declaration _ =>
    map_start_backingMethodCaptures declaration, ← List.map_flatMap] at starts
  exact List.pairwise_map.mp starts

end SourceFile

end Go

end Scaffold
