import Scaffold.Proofs.Contract.Names
import Scaffold.Proofs.Go.Identifiers
import Scaffold.Proofs.Implementation.Scan
import Scaffold.Proofs.Module.Resolver

/-!
# Names of packages

The name of a contract's package is a name of the source that declares the
contract.  An implementation package has a name of one of its own sources, or
one made from the name of the contract's package, so code can always spell it.
-/

namespace Scaffold

namespace Go

/-! ## Captures of package names -/

theorem isWord_of_mem_tokens {source : Text} {tokens : List Token} {token : Token}
    (cut : tokens? source = some tokens) (member : token ∈ tokens)
    (name : token.terminal.IsName) : IsWord token.text :=
  (isIdentifier_of_mem_tokens cut member name).isWord

namespace SourceFile

theorem isIdentifier_of_mem_packageCaptures {source : Text} {file : SourceFile}
    (known : ofText? source = some file) {capture : Capture}
    (member : capture ∈ file.packageCaptures) : IsIdentifier capture.text := by
  obtain ⟨clause, top, named⟩ := List.mem_flatMap.mp member
  obtain ⟨name, part, rfl⟩ := List.mem_map.mp named
  have inside : clause ∈ Tree.subtreesOfAll file.items :=
    Tree.mem_subtreesOfAll.mpr ⟨clause, (List.mem_filter.mp top).1, Tree.mem_subtrees_self clause⟩
  obtain ⟨children, rfl, below⟩ := exists_name_of_mem_parts inside part
  obtain ⟨tokens, cut, token, listed, name, spelling⟩ := exists_token_of_name known below
  have text : (Capture.ofTree .package (Tree.node .name children)).text = token.text := spelling
  rw [text]
  exact isIdentifier_of_mem_tokens cut listed name

theorem mem_packageCaptures_of_contract {file : SourceFile} {capture : Capture}
    (member : capture ∈ file.contractCaptures) (label : capture.label = .package) :
    capture ∈ file.packageCaptures := by
  rcases List.mem_append.mp ((Sorting.mem_sort _).mp member) with package | contract
  · exact package
  · obtain ⟨spec, _, captured⟩ := List.mem_flatMap.mp contract
    unfold contractTypeCaptures at captured
    split at captured
    · obtain ⟨name, _, either⟩ := List.mem_flatMap.mp captured
      rcases List.mem_cons.mp either with rfl | method
      · simp [Capture.ofTree] at label
      · obtain ⟨element, _, taken⟩ := List.mem_flatMap.mp method
        simp only [methodCaptures, List.mem_append, List.mem_map] at taken
        rcases taken with (⟨tree, _, rfl⟩ | ⟨tree, _, rfl⟩) | ⟨tree, _, rfl⟩ <;>
          simp [Capture.ofTree] at label
    · simp at captured

theorem mem_packageCaptures_of_implementation {file : SourceFile} {capture : Capture}
    (member : capture ∈ file.implementationCaptures) (label : capture.label = .package) :
    capture ∈ file.packageCaptures := by
  rcases List.mem_append.mp ((Sorting.mem_sort _).mp member) with declared | method
  · rcases List.mem_append.mp declared with package | type
    · exact package
    · obtain ⟨spec, _, captured⟩ := List.mem_flatMap.mp type
      obtain ⟨name, _, rfl⟩ := List.mem_map.mp captured
      simp [Capture.ofTree] at label
  · obtain ⟨declaration, _, captured⟩ := List.mem_flatMap.mp method
    unfold backingMethodCaptures at captured
    split at captured
    · simp at captured
    · simp only [List.mem_append, List.mem_map] at captured
      rcases captured with ⟨tree, _, rfl⟩ | ⟨tree, _, rfl⟩ <;> simp [Capture.ofTree] at label

end SourceFile

end Go

open Go (Event IsIdentifier)

/-! ## Packages of contracts -/

namespace Regrouping

/-- The package, if it is known, has a name of some kind. -/
def IsPackageNamed (good : Text → Prop) (state : Regrouping) : Prop :=
  ∀ package, state.package? = some package → good package

theorem package?_readList {state next : Regrouping} {contract text : Text}
    {assign : List Parameter → Method → Method}
    (result : state.readList contract text assign = .ok next) :
    next.package? = state.package? := by
  unfold readList at result
  split at result
  · rw [Except.ok.inj result]
  · split at result
    · simp at result
    · rw [← Except.ok.inj result, describeMethod]
      split <;> rfl

/-- A step takes the name of the package from captures of packages. -/
theorem isPackageNamed_step {good : Text → Prop} {state next : Regrouping} {event : Event}
    (named : state.IsPackageNamed good) (own : event.label = .package → good event.text)
    (result : state.step event = .ok next) : next.IsPackageNamed good := by
  have kept (same : next.package? = state.package?) : next.IsPackageNamed good :=
    fun package known => named package (same ▸ known)
  unfold step at result
  split at result
  · rename_i isPackage
    rw [← Except.ok.inj result]
    intro package known
    cases old : state.package? with
    | none =>
        rw [takePackage, old, Option.none_or] at known
        exact Option.some.inj known ▸ own isPackage
    | some before =>
        rw [takePackage, old, Option.some_or] at known
        exact named package (old.trans known)
  · refine kept ?_
    rw [← Except.ok.inj result, openContract]
    split
    · rfl
    · split <;> rfl
  · exact kept (Except.ok.inj result ▸ rfl)
  · exact kept (Except.ok.inj result ▸ rfl)
  · exact kept (package?_readList result)
  · exact kept (package?_readList result)
  · exact kept (Except.ok.inj result ▸ rfl)

theorem isPackageNamed_continueWith {good : Text → Prop} (events : List Event) :
    ∀ {state last : Regrouping}, state.IsPackageNamed good →
      (∀ event ∈ events, event.label = .package → good event.text) →
      state.continueWith events = .ok last → last.IsPackageNamed good := by
  induction events with
  | nil =>
      intro state last named _ result
      rw [← Except.ok.inj result]
      exact named
  | cons event rest induction =>
      intro state last named own result
      rw [continueWith] at result
      split at result
      · simp at result
      · rename_i next stepped
        have first := isPackageNamed_step named (own event List.mem_cons_self) stepped
        exact induction first (fun other member => own other (List.mem_cons_of_mem event member))
          result

end Regrouping

namespace Contract

theorem isIdentifier_packageName_of_ofSource {source : Bytes} {contracts : List Contract}
    (extracted : ofSource source = .ok contracts) :
    ∀ contract ∈ contracts, IsIdentifier contract.packageName := by
  unfold ofSource at extracted
  split at extracted
  · simp at extracted
  · rename_i file read
    unfold ofFile at extracted
    split at extracted
    · simp at extracted
    · rename_i regrouping regrouped
      split at extracted
      · simp at extracted
      · rename_i package known
        have named : regrouping.IsPackageNamed IsIdentifier := by
          have nothing : ({} : Regrouping).IsPackageNamed IsIdentifier :=
            fun _ none => by simp at none
          refine Regrouping.isPackageNamed_continueWith _ nothing ?_ regrouped
          intro event member label
          obtain ⟨capture, captured, rfl⟩ := List.mem_map.mp member
          exact Go.SourceFile.isIdentifier_of_mem_packageCaptures
            (Go.SourceFile.text_of_ofBytes read).2
            (Go.SourceFile.mem_packageCaptures_of_contract captured label)
        rw [← Except.ok.inj extracted]
        intro contract member
        obtain ⟨before, _, rfl⟩ := List.mem_map.mp member
        exact named package known

theorem isIdentifier_name_of_ofSource {source : Bytes} {contracts : List Contract}
    (extracted : ofSource source = .ok contracts) :
    ∀ contract ∈ contracts, IsIdentifier contract.name := by
  unfold ofSource at extracted
  split at extracted
  · simp at extracted
  · rename_i file read
    refine forall_name_of_ofFile (fun children inside => ?_) extracted
    obtain ⟨tokens, cut, token, listed, name, spelling⟩ :=
      Go.SourceFile.exists_token_of_name (Go.SourceFile.text_of_ofBytes read).2 inside
    rw [spelling]
    exact Go.isIdentifier_of_mem_tokens cut listed name

end Contract

/-! ## Implementation packages -/

namespace FileFacts

/-- The package of a file is that of a capture. -/
theorem exists_event_of_package (events : List Event) :
    ∀ {facts : FileFacts} {package : Text},
      (events.foldl step facts).package? = some package →
        facts.package? = some package ∨
          ∃ event ∈ events, event.label = .package ∧ event.text = package := by
  induction events with
  | nil => exact fun known => .inl known
  | cons event rest induction =>
      intro facts package known
      rw [List.foldl_cons] at known
      rcases induction known with before | ⟨other, member, found⟩
      · unfold step at before
        split at before
        · rename_i isPackage
          exact .inr ⟨event, List.mem_cons_self, isPackage, Option.some.inj before⟩
        · exact .inl before
        · exact .inl before
        · split at before <;> exact .inl before
        · exact .inl before
      · exact .inr ⟨other, List.mem_cons_of_mem event member, found⟩

theorem isIdentifier_package_of_ofSource {source : Bytes} {facts : FileFacts}
    (read : ofSource source = .ok facts) {package : Text} (known : facts.package? = some package) :
    IsIdentifier package := by
  unfold ofSource at read
  cases file : Go.SourceFile.ofBytes source with
  | error fault => simp [file, Except.map] at read
  | ok accepted =>
      have shown : ofFile accepted = facts := by simpa [file, Except.map] using read
      rw [← shown] at known
      rcases exists_event_of_package _ known with nothing | ⟨event, member, label, rfl⟩
      · simp at nothing
      · obtain ⟨capture, captured, rfl⟩ := List.mem_map.mp member
        exact Go.SourceFile.isIdentifier_of_mem_packageCaptures
          (Go.SourceFile.text_of_ofBytes file).2
          (Go.SourceFile.mem_packageCaptures_of_implementation captured label)

end FileFacts

namespace PackageFacts

theorem isIdentifier_package_of_collect {packagePath : Text} {facts : PackageFacts}
    (files : List (Text × Bytes)) :
    ∀ {known : PackageFacts}, (∀ package, known.package? = some package → IsIdentifier package) →
      (collect packagePath known files).result = .ok facts →
        ∀ package, facts.package? = some package → IsIdentifier package := by
  induction files with
  | nil =>
      intro known named result
      have same : known = facts := Except.ok.inj result
      exact same ▸ named
  | cons file rest induction =>
      intro known named result
      obtain ⟨fileName, content⟩ := file
      rw [collect] at result
      split at result
      · simp at result
      · rename_i shown read
        obtain ⟨_, _, result⟩ := Attempt.result_andThen_eq_ok_iff.mp result
        refine induction ?_ result
        intro package declared
        rcases Option.or_eq_some_iff.mp declared with before | ⟨_, now⟩
        · exact named package before
        · exact FileFacts.isIdentifier_package_of_ofSource read now

end PackageFacts

theorem isIdentifier_implementationPackageName {package : Text} (proper : IsIdentifier package) :
    IsIdentifier (implementationPackageName package) := by
  obtain ⟨starts, letters, -⟩ := Go.isIdentifier_iff.mp proper
  have reserved : ∀ entry ∈ Go.keywords, ¬ Contract.packageSuffix <:+ entry.1 := by decide +kernel
  refine Go.isIdentifier_iff.mpr ⟨?_, ?_, fun entry listed same => ?_⟩
  · rwa [implementationPackageName, List.head?_append_of_ne_nil _ proper.ne_nil]
  · rw [implementationPackageName, List.all_append, letters, Bool.true_and]
    decide +kernel
  · exact reserved entry listed (same ▸ List.suffix_append _ _)

end Scaffold
