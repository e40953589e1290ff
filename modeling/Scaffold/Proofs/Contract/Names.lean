import Scaffold.Contract.Extraction
import Scaffold.Proofs.Go.Layout
import Scaffold.Proofs.Go.Reading
import Scaffold.Proofs.Go.Spelling
import Scaffold.Proofs.Path.Components
import Scaffold.Proofs.Sorting

/-!
# Names of contracts

The name of a contract is a name of the source that declares it, so it holds no
slash, and neither does the name of the file for its implementation.
-/

namespace Scaffold

namespace Go

/-! ## Names in a file -/

theorem isIdentifier_of_mem_groups (phrase : Phrase) :
    ∀ entry ∈ Rule.groups (Grammar.table phrase), entry.1 = .name →
      entry.2 = Grammar.identifier := by
  cases phrase <;> decide

theorem isIdentifier_of_mem_groups_file :
    ∀ entry ∈ Rule.groups Grammar.file, entry.1 = .name → entry.2 = Grammar.identifier := by
  decide

/-- An identifier is read as one token. -/
theorem exists_token_of_read_identifier {fuel : Nat} {layout : Layout}
    {tokens rest : List Token} {trees : List Tree}
    (result : Rule.read Grammar.table fuel layout Grammar.identifier tokens =
      some (trees, rest)) :
    ∃ token, trees = [.leaf token] ∧ token.terminal.IsName := by
  cases fuel with
  | zero => simp [Rule.read] at result
  | succ fuel =>
      rw [Grammar.identifier, Rule.read] at result
      cases fuel with
      | zero => simp [Rule.read] at result
      | succ fuel =>
          split at result
          · obtain ⟨token, _, fits, rfl⟩ := Rule.read_token_eq_some.mp result
            exact ⟨token, rfl, .inr fits⟩
          · rename_i found first
            rw [result] at first
            obtain ⟨token, _, fits, rfl⟩ := Rule.read_token_eq_some.mp first
            exact ⟨token, rfl, .inl fits⟩

/-- How a file was read. -/
theorem SourceFile.exists_read {source : Text} {file : SourceFile}
    (known : SourceFile.ofText? source = some file) :
    ∃ tokens, tokens? source = some tokens ∧ file.source = source ∧
      Rule.read Grammar.table (SourceFile.depthBound tokens.length) .lines Grammar.file tokens =
        some (file.items, []) := by
  unfold SourceFile.ofText? at known
  split at known
  · simp at known
  · rename_i tokens cut
    split at known
    · rename_i items result
      rw [← Option.some.inj known]
      exact ⟨tokens, cut, rfl, result⟩
    · simp at known

theorem SourceFile.exists_leaf_of_name {source : Text} {file : SourceFile}
    (known : SourceFile.ofText? source = some file) {children : List Tree}
    (inside : Tree.node .name children ∈ Tree.subtreesOfAll file.items) :
    ∃ token, children = [.leaf token] ∧ token.terminal.IsName := by
  obtain ⟨tokens, cut, _, result⟩ := file.exists_read known
  obtain ⟨body, isName, fuel, layout, before, after, read⟩ :=
    Rule.isReadBy_of_read (fun kind body => kind = .name → body = Grammar.identifier)
      isIdentifier_of_mem_groups _ isIdentifier_of_mem_groups_file result _ _ inside
  rw [isName rfl] at read
  exact exists_token_of_read_identifier read

/-- A name in a file is one token of it. -/
theorem SourceFile.exists_token_of_name {source : Text} {file : SourceFile}
    (known : SourceFile.ofText? source = some file) {children : List Tree}
    (inside : Tree.node .name children ∈ Tree.subtreesOfAll file.items) :
    ∃ tokens, tokens? source = some tokens ∧ ∃ token ∈ tokens, token.terminal.IsName ∧
      (Tree.node .name children).code = token.text := by
  obtain ⟨tokens, cut, _, result⟩ := file.exists_read known
  obtain ⟨token, rfl, name⟩ := SourceFile.exists_leaf_of_name known inside
  have listed : token ∈ tokens := by
    have whole := Rule.tokens_of_read _ result
    rw [List.append_nil] at whole
    rw [← whole]
    apply Tree.tokens_subset_of_mem_subtreesOfAll _ inside
    simp [Tree.tokens, Tree.tokensOfAll]
  exact ⟨tokens, cut, token, listed, name, by simp [Tree.code, Tree.tokens, Tree.tokensOfAll]⟩

theorem SourceFile.continuesName_of_name {source : Text} {file : SourceFile}
    (known : SourceFile.ofText? source = some file) {children : List Tree}
    (inside : Tree.node .name children ∈ Tree.subtreesOfAll file.items) :
    ∀ character ∈ (Tree.node .name children).code, continuesName character = true := by
  obtain ⟨tokens, cut, token, listed, name, spelling⟩ := exists_token_of_name known inside
  rw [spelling]
  exact continuesName_of_mem_tokens cut listed name

end Go

/-! ## Regrouping -/

namespace Regrouping

open Go (Event)

theorem name_of_mem_change {contracts : List Contract} {name : Text}
    {change : Contract → Contract} (keeps : ∀ contract, (change contract).name = contract.name)
    {contract : Contract} (member : contract ∈ Contract.change name change contracts) :
    ∃ before ∈ contracts, contract.name = before.name := by
  obtain ⟨before, known, rfl⟩ := List.mem_map.mp member
  refine ⟨before, known, ?_⟩
  split
  · exact keeps before
  · rfl

/-- The names of all contracts are of some kind. -/
def AreNamed (good : Text → Prop) (state : Regrouping) : Prop :=
  ∀ contract ∈ state.contracts, good contract.name

theorem areNamed_change {good : Text → Prop} {state next : Regrouping} {name : Text}
    {change : Contract → Contract} (named : state.AreNamed good)
    (keeps : ∀ contract, (change contract).name = contract.name)
    (changed : next.contracts = Contract.change name change state.contracts) :
    next.AreNamed good := by
  intro contract member
  rw [changed] at member
  obtain ⟨before, known, same⟩ := name_of_mem_change keeps member
  rw [same]
  exact named before known

theorem areNamed_readList {good : Text → Prop} {state next : Regrouping} {contract text : Text}
    {assign : List Parameter → Method → Method} (named : state.AreNamed good)
    (result : state.readList contract text assign = .ok next) : next.AreNamed good := by
  unfold readList at result
  split at result
  · rw [← Except.ok.inj result]
    exact named
  · split at result
    · simp at result
    · rw [← Except.ok.inj result]
      unfold describeMethod
      split
      · exact named
      · apply areNamed_change named (fun contract => ?_) rfl
        rfl

/-- A step takes the names of contracts from captures of contracts. -/
theorem areNamed_step {good : Text → Prop} {state next : Regrouping} {event : Event}
    (named : state.AreNamed good) (own : event.label = .contract → good event.text)
    (result : state.step event = .ok next) : next.AreNamed good := by
  unfold step at result
  split at result
  · rw [← Except.ok.inj result]
    exact named
  · rename_i isContract
    rw [← Except.ok.inj result]
    unfold openContract
    split
    · exact named
    · split
      · exact named
      · intro contract member
        cases List.mem_append.mp member with
        | inl old => exact named contract old
        | inr new =>
            rw [List.mem_singleton.mp new]
            exact own isContract
  · rw [← Except.ok.inj result]
    exact named
  · rw [← Except.ok.inj result]
    apply areNamed_change named (fun contract => ?_) rfl
    unfold Contract.declareMethod
    split <;> rfl
  · exact areNamed_readList named result
  · exact areNamed_readList named result
  · rw [← Except.ok.inj result]
    exact named

theorem areNamed_continueWith {good : Text → Prop} (events : List Event) :
    ∀ {state last : Regrouping}, state.AreNamed good →
      (∀ event ∈ events, event.label = .contract → good event.text) →
      state.continueWith events = .ok last → last.AreNamed good := by
  induction events with
  | nil =>
      intro state last named _ result
      rw [← Except.ok.inj result]
      exact named
  | cons event rest induction =>
      intro state last named own result
      rw [continueWith] at result
      split at result
      · simp at result
      · rename_i next stepped
        have first := areNamed_step named (own event List.mem_cons_self) stepped
        exact induction first (fun other member => own other (List.mem_cons_of_mem event member))
          result

end Regrouping

/-! ## Contracts -/

namespace Go

theorem SourceFile.exists_name_of_mem_parts {file : SourceFile} {tree name : Tree}
    (inside : tree ∈ Tree.subtreesOfAll file.items) (part : name ∈ tree.parts .name) :
    ∃ children, name = .node .name children ∧
      Tree.node .name children ∈ Tree.subtreesOfAll file.items := by
  obtain ⟨below, isName⟩ := List.mem_filter.mp part
  cases tree with
  | leaf token => simp [Tree.children] at below
  | node kind children =>
      have deeper := Tree.children_mem_subtreesOfAll below _ inside
      cases name with
      | leaf token => simp [Tree.isA, Tree.kind?] at isName
      | node kind parts =>
          have same : kind = .name := by
            simpa [Tree.isA, Tree.kind?] using isName
          subst same
          exact ⟨parts, rfl, deeper⟩

/-- A capture of a contract is one of a name inside the file. -/
theorem SourceFile.exists_name_of_mem_contractCaptures {file : SourceFile} {capture : Capture}
    (member : capture ∈ file.contractCaptures) (label : capture.label = .contract) :
    ∃ children, Tree.node .name children ∈ Tree.subtreesOfAll file.items ∧
      capture.text = (Tree.node .name children).code := by
  have listed := (Sorting.mem_sort _).mp member
  rw [List.mem_append] at listed
  cases listed with
  | inl package =>
      obtain ⟨clause, _, named⟩ := List.mem_flatMap.mp package
      obtain ⟨tree, _, rfl⟩ := List.mem_map.mp named
      simp [Capture.ofTree] at label
  | inr contract =>
      obtain ⟨spec, inside, captured⟩ := List.mem_flatMap.mp contract
      unfold contractTypeCaptures at captured
      split at captured
      · obtain ⟨name, named, either⟩ := List.mem_flatMap.mp captured
        rw [List.mem_cons] at either
        cases either with
        | inl is =>
            obtain ⟨item, listed, inner⟩ := List.mem_flatMap.mp inside
            have subtree : spec ∈ Tree.subtreesOfAll file.items :=
              Tree.mem_subtreesOfAll.mpr ⟨item, listed, (List.mem_filter.mp inner).1⟩
            obtain ⟨parts, rfl, deeper⟩ :=
              exists_name_of_mem_parts subtree (List.mem_filter.mp named).1
            exact ⟨parts, deeper, by rw [is]; rfl⟩
        | inr method =>
            obtain ⟨element, _, taken⟩ := List.mem_flatMap.mp method
            simp only [methodCaptures, List.mem_append, List.mem_map] at taken
            rcases taken with (⟨tree, _, rfl⟩ | ⟨tree, _, rfl⟩) | ⟨tree, _, rfl⟩ <;>
              simp [Capture.ofTree] at label
      · simp at captured

end Go

namespace Contract

open Go (continuesName)

/-- The names of the contracts in a file are of a kind that all names in the file are
of. -/
theorem forall_name_of_ofFile {good : Text → Prop} {file : Go.SourceFile}
    (own : ∀ children, Go.Tree.node .name children ∈ Go.Tree.subtreesOfAll file.items →
      good (Go.Tree.node .name children).code)
    {contracts : List Contract} (extracted : ofFile file = .ok contracts) :
    ∀ contract ∈ contracts, good contract.name := by
  unfold ofFile at extracted
  split at extracted
  · simp at extracted
  · rename_i regrouping regrouped
    split at extracted
    · simp at extracted
    · have named : regrouping.AreNamed good := by
        have nothing : ({} : Regrouping).AreNamed good := by
          intro contract member
          simp at member
        refine Regrouping.areNamed_continueWith _ nothing ?_ regrouped
        · intro event member label
          obtain ⟨capture, captured, rfl⟩ := List.mem_map.mp member
          obtain ⟨children, inside, spelling⟩ :=
            Go.SourceFile.exists_name_of_mem_contractCaptures captured label
          rw [spelling]
          exact own children inside
      rw [← Except.ok.inj extracted]
      intro contract member
      obtain ⟨before, listed, rfl⟩ := List.mem_map.mp member
      exact named before listed

theorem continuesName_of_ofSource {source : Bytes} {contracts : List Contract}
    (extracted : ofSource source = .ok contracts) :
    ∀ contract ∈ contracts, ∀ character ∈ contract.name, continuesName character = true := by
  unfold ofSource at extracted
  split at extracted
  · simp at extracted
  · rename_i file read
    have named := Go.SourceFile.text_of_ofBytes read
    exact @forall_name_of_ofFile (fun name => ∀ character ∈ name, continuesName character = true)
      file (fun _ => Go.SourceFile.continuesName_of_name named.2) contracts extracted

end Contract

/-! ## File names -/

namespace Text

/-- The character stands before the digits in ASCII. -/
def IsEarly (character : Char) : Prop :=
  0 < character.toNat ∧ character.toNat < 48

instance (character : Char) : Decidable (IsEarly character) :=
  inferInstanceAs (Decidable (_ ∧ _))

/-- Lowering makes no character that stands before the digits. -/
theorem not_mem_lowerChar {mark character : Char} (early : IsEarly mark)
    (different : character ≠ mark) : mark ∉ lowerChar character := by
  have above : ∀ run ∈ loweringRuns, (47 : Int) < run.1 + run.2.2.2 := by decide +kernel
  have code {number : Nat} (late : 48 ≤ number) : mark ≠ Char.ofNat number := by
    intro same
    have numbers : mark.toNat = (Char.ofNat number).toNat := congrArg Char.toNat same
    obtain ⟨positive, small⟩ := early
    by_cases valid : number.isValidChar
    · rw [Char.ofNat, dif_pos valid] at numbers
      have own : mark.toNat = number := numbers
      omega
    · rw [Char.ofNat, dif_neg valid] at numbers
      have zero : mark.toNat = 0 := numbers
      omega
  unfold lowerChar
  dsimp only
  split
  · split
    · rename_i bounds
      rw [List.mem_singleton]
      exact code (by omega)
    · simpa using Ne.symm different
  · split
    · rw [List.mem_cons, List.mem_singleton, not_or]
      exact ⟨code (by omega), code (by omega)⟩
    · split
      · rename_i run found
        have known := above run (List.mem_of_find?_eq_some found)
        have fits := List.find?_some found
        simp only [Bool.and_eq_true, decide_eq_true_eq] at fits
        rw [List.mem_singleton]
        exact code (by omega)
      · simpa using Ne.symm different

theorem not_mem_lower {mark : Char} (early : IsEarly mark) {text : Text} (absent : mark ∉ text) :
    mark ∉ lower text := by
  have sigma {number : Nat} (late : number = 0x3C2 ∨ number = 0x3C3) :
      mark ≠ Char.ofNat number := by
    intro same
    have small := early.2
    rcases late with rfl | rfl <;> exact absurd (same ▸ small) (by decide)
  have after : ∀ seen, mark ∉ lowerAfter seen text := by
    induction text with
    | nil => simp [lowerAfter]
    | cons character rest induction =>
        rw [List.mem_cons, not_or] at absent
        intro seen
        rw [lowerAfter, List.mem_append, not_or]
        constructor
        · split
          · rw [List.mem_singleton]
            split
            · exact sigma (.inl rfl)
            · exact sigma (.inr rfl)
          · exact not_mem_lowerChar early (Ne.symm absent.1)
        · exact induction absent.2 _
  exact after []

end Text

namespace Contract

theorem isComponent_defaultFileName {contract : Contract} (clean : '/' ∉ contract.name) :
    Path.IsComponent contract.defaultFileName ∧ contract.defaultFileName ≠ Path.up := by
  have short : '/' ∉ contract.shortName := by
    intro member
    unfold shortName at member
    split at member
    · exact clean (List.mem_of_mem_take member)
    · exact clean member
  have noSlash : '/' ∉ contract.defaultFileName := by
    rw [defaultFileName, List.mem_append, not_or]
    exact ⟨Text.not_mem_lower (by decide) short, by decide⟩
  have long : 7 < contract.defaultFileName.length := by
    have size : (fileSuffix).length = 8 := by decide
    rw [defaultFileName, List.length_append, size]
    omega
  refine ⟨⟨?_, ?_, noSlash⟩, ?_⟩
  · intro same
    simp [same] at long
  · intro same
    simp [same, Path.here] at long
  · intro same
    simp [same, Path.up] at long

end Contract

end Scaffold
