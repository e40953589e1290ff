import Scaffold.Proofs.Disk.NullCharacter
import Scaffold.Proofs.Module.Search
import Scaffold.Proofs.Text.Encoding
import Scaffold.Proofs.Text.Lines

/-!
# The nearest manifest decides

A directory belongs to the module that the nearest manifest at or above it names.
A nearest manifest that names none leaves the directory without a module, whatever
the manifests above it say.
-/

namespace Scaffold

/-! ## Where a directory is -/

namespace Text

theorem isSuffix_join (separator last : Text) (pieces : List Text) :
    last <:+ join separator (pieces ++ [last]) := by
  induction pieces with
  | nil => exact List.suffix_refl last
  | cons piece pieces induction =>
      obtain ⟨next, others, same⟩ := List.exists_cons_of_ne_nil
        (List.append_ne_nil_of_right_ne_nil pieces (List.cons_ne_nil last []))
      rw [List.cons_append, same, join, ← same]
      exact List.suffix_append_of_suffix induction

end Text

namespace Disk

theorem mem_of_mem_place {components : List Text} :
    ∀ {location : Location}, ∀ name ∈ place location components,
      name ∈ location ∨ name ∈ components := by
  induction components with
  | nil => exact fun _ member => .inl member
  | cons component rest induction =>
      intro location name member
      rcases induction name member with here | later
      · unfold stepTo at here
        split at here
        · exact .inl ((List.dropLast_sublist _).mem here)
        · rcases List.mem_append.mp here with old | new
          · exact .inl old
          · exact .inr (List.mem_singleton.mp new ▸ List.mem_cons_self)
      · exact .inr (List.mem_cons_of_mem component later)

theorem up_not_mem_place {components : List Text} :
    ∀ {location : Location}, Path.up ∉ location → Path.up ∉ place location components := by
  induction components with
  | nil => exact fun absent => absent
  | cons component rest induction =>
      intro location absent
      apply induction
      unfold stepTo
      split
      · exact fun member => absent ((List.dropLast_sublist _).mem member)
      · rename_i different
        rw [List.mem_append, List.mem_singleton]
        rintro (old | new)
        · exact absent old
        · exact different new.symm

end Disk

namespace Path

theorem resolveSteps_eq_place (parts : List Text) :
    resolveSteps true parts = Disk.place [] parts := by
  have walk : ∀ resolved, up ∉ resolved →
      (parts.foldl (resolveStep true) resolved).reverse = Disk.place resolved.reverse parts := by
    induction parts with
    | nil => exact fun _ _ => rfl
    | cons part parts induction =>
        intro resolved absent
        have step : (resolveStep true resolved part).reverse = Disk.stepTo resolved.reverse part ∧
            up ∉ resolveStep true resolved part := by
          unfold resolveStep Disk.stepTo
          by_cases same : part = up
          · rw [if_pos same, if_pos same]
            cases resolved with
            | nil => exact ⟨rfl, absent⟩
            | cons last rest =>
                have different : last ≠ up := fun equal => absent (equal ▸ List.mem_cons_self)
                dsimp only
                rw [if_neg different, List.reverse_cons, List.dropLast_concat]
                exact ⟨rfl, fun member => absent (List.mem_cons_of_mem last member)⟩
          · rw [if_neg same, if_neg same, List.reverse_cons, List.mem_cons, not_or]
            exact ⟨rfl, Ne.symm same, absent⟩
        rw [List.foldl_cons, induction _ step.2, step.1]
        rfl
  exact walk [] List.not_mem_nil

theorem isSuffix_tidy {path name : Text} {parts : List Text}
    (split : components path = parts ++ [name]) (something : name ≠ []) : name <:+ tidy path := by
  have ends : name <:+ rootSlashes path ++ Text.join "/" (components path) := by
    rw [split]
    exact List.suffix_append_of_suffix (Text.isSuffix_join "/" name parts)
  rw [tidy]
  split
  · rename_i empty
    rw [List.isEmpty_iff.mp empty] at ends
    exact absurd (List.suffix_nil.mp ends) something
  · exact ends

end Path

namespace Module

open Disk (place shownComponents)

/-! ## Manifests in directories -/

/-- The path of the manifest directly inside a directory. -/
def manifestPath (directory : Location) : Text :=
  Path.within (shownComponents directory) Manifest.fileName

/-- The content of the manifest directly inside a directory. -/
def manifestIn? (disk : Disk) (directory : Location) : Option Bytes :=
  disk.content? (directory ++ [Manifest.fileName])

/-- The names of a location, as they are in paths. -/
structure IsPlace (location : Location) : Prop where
  proper : ∀ name ∈ location, Path.IsComponent name
  noUp : Path.up ∉ location
  clean : location.any Disk.holdsNull = false

theorem IsPlace.of_prefix {location directory : Location} (isPlace : IsPlace location)
    (above : directory <+: location) : IsPlace directory where
  proper := fun name member => isPlace.proper name (above.subset member)
  noUp := fun member => isPlace.noUp (above.subset member)
  clean := by
    apply List.any_eq_false.mpr
    intro name member
    exact List.any_eq_false.mp isPlace.clean name (above.subset member)

theorem isPlace_place {path : Text} (clean : Disk.holdsNull path = false) :
    IsPlace (place [] (Path.components path)) where
  proper := by
    intro name member
    rcases Disk.mem_of_mem_place name member with nothing | part
    · exact absurd nothing List.not_mem_nil
    · exact Path.isComponent_of_mem_components name part
  noUp := Disk.up_not_mem_place List.not_mem_nil
  clean := by
    rw [Disk.holdsNull_eq_any_components] at clean
    apply List.any_eq_false.mpr
    intro name member
    rcases Disk.mem_of_mem_place name member with nothing | part
    · exact absurd nothing List.not_mem_nil
    · exact List.any_eq_false.mp clean name part

theorem mayBeFile_manifestPath {directory : Location} (isPlace : IsPlace directory) :
    Disk.mayBeFile (manifestPath directory) = true := by
  have names := components_manifest isPlace.proper
  have clean : Disk.holdsNull (manifestPath directory) = false := by
    rw [manifestPath, Disk.holdsNull_eq_any_components, names, List.any_append, isPlace.clean]
    decide
  obtain ⟨front, whole⟩ : Manifest.fileName <:+ manifestPath directory := by
    have parts : Path.components (Path.join (shownComponents directory) Manifest.fileName) =
        directory ++ [Manifest.fileName] := by
      rw [← Path.components_tidy]
      exact names
    exact Path.isSuffix_tidy parts (by decide)
  have last : (manifestPath directory).getLast? = some 'd' := by
    rw [← whole, List.getLast?_append]
    rfl
  obtain ⟨pieces, piece, split⟩ :=
    Text.exists_splitOn_append (show '/' ∉ Manifest.fileName by decide) front
  have noDot : piece ++ Manifest.fileName ≠ Path.here := by
    intro same
    have sizes := congrArg List.length same
    rw [List.length_append] at sizes
    simp [Manifest.fileName, Path.here] at sizes
  have noSlash : Disk.endsInSlash (manifestPath directory) = false := by
    rw [Disk.endsInSlash, last]
    decide
  have dotless : Disk.endsInDot (manifestPath directory) = false := by
    rw [Disk.endsInDot, ← whole, split, List.getLast?_concat]
    simpa using noDot
  rw [Disk.mayBeFile, clean, noSlash, dotless]
  rfl

variable {disk : Disk}

/-- What a directory says about its module is what its manifest says. -/
theorem ofDirectory?_eq (tree : disk.IsTree) {directory : Location}
    (isPlace : IsPlace directory) :
    ofDirectory? disk directory =
      (manifestIn? disk directory).map
        (ofManifest (shownComponents directory) (manifestPath directory)) := by
  have names : Path.components (manifestPath directory) = directory ++ [Manifest.fileName] :=
    components_manifest isPlace.proper
  have noUp : Path.up ∉ Path.components (manifestPath directory) := by
    rw [names, List.mem_append, List.mem_singleton]
    rintro (inside | last)
    · exact isPlace.noUp inside
    · exact absurd last (by decide)
  have same : disk.fileAt? (manifestPath directory) = manifestIn? disk directory := by
    refine Option.ext fun content => ?_
    rw [tree.fileAt?_eq_some_iff noUp, names, mayBeFile_manifestPath isPlace]
    exact ⟨fun ⟨_, present⟩ => present, fun present => ⟨rfl, present⟩⟩
  rw [← same]
  rfl

/-! ## The search -/

/-- The directory is the nearest one, at a location or above it, that holds a
manifest. -/
structure IsNearest (disk : Disk) (location directory : Location) (content : Bytes) : Prop where
  above : directory <+: location
  manifest : manifestIn? disk directory = some content
  nearest : ∀ other, other <+: location → directory.length < other.length →
    manifestIn? disk other = none

/-- What a manifest says about the module of its directory. -/
inductive Tells (directory : Location) (content : Bytes) : Except ModuleFault Module → Prop where
  | module {text path : Text} (written : content = Utf8.encode text)
      (named : Manifest.modulePath? text = some path) (something : path ≠ []) :
      Tells directory content (.ok ⟨path, shownComponents directory⟩)
  | nameless {text : Text} (written : content = Utf8.encode text)
      (nothing : ∀ path, Manifest.modulePath? text = some path → path = []) :
      Tells directory content (.error (.noDirective (manifestPath directory)))
  | undecodable {fault : Utf8Fault} (foreign : ∀ text, content ≠ Utf8.encode text)
      (fails : Utf8.decode content = .error fault) :
      Tells directory content (.error (.notUtf8 (manifestPath directory) fault))

/-- The nearest manifest answers, or there is none at or above the location. -/
inductive Decides (disk : Disk) (shown : Text) (location : Location) :
    Except ModuleFault Module → Prop where
  | manifest {directory : Location} {content : Bytes} {answer : Except ModuleFault Module}
      (nearest : IsNearest disk location directory content)
      (tells : Tells directory content answer) : Decides disk shown location answer
  | nothing (none : ∀ directory, directory <+: location → manifestIn? disk directory = none) :
      Decides disk shown location (.error (.noManifest shown))

/-! ## One answer -/

theorem modulePath?_universalNewlines (text : Text) :
    Manifest.modulePath? (Text.universalNewlines text) = Manifest.modulePath? text := by
  rw [Manifest.modulePath?, Manifest.modulePath?, Text.lines_universalNewlines]

/-- A manifest tells one thing only. -/
theorem tells_iff {directory : Location} {content : Bytes} {answer : Except ModuleFault Module} :
    Tells directory content answer ↔
      answer = ofManifest (shownComponents directory) (manifestPath directory) content := by
  constructor
  · intro tells
    unfold ofManifest
    cases tells with
    | @module text path written named something =>
        obtain ⟨first, rest, rfl⟩ := List.exists_cons_of_ne_nil something
        simp only [written, Utf8.decode_encode, modulePath?_universalNewlines, named]
    | @nameless text written nothing =>
        simp only [written, Utf8.decode_encode, modulePath?_universalNewlines]
        cases named : Manifest.modulePath? text with
        | none => rfl
        | some path => rw [nothing path named]
    | undecodable foreign fails => simp only [fails]
  · rintro rfl
    unfold ofManifest
    cases decoded : Utf8.decode content with
    | error fault =>
        refine .undecodable ?_ decoded
        rintro text rfl
        simp at decoded
    | ok text =>
        have written : content = Utf8.encode text := (Utf8.encode_of_decode decoded).symm
        simp only [modulePath?_universalNewlines]
        cases named : Manifest.modulePath? text with
        | none => exact .nameless written fun path same => absurd (named.symm.trans same) (by simp)
        | some path =>
            cases path with
            | nil =>
                refine .nameless written fun path same => ?_
                exact (Option.some.inj (named.symm.trans same)).symm
            | cons first rest => exact .module written named (List.cons_ne_nil first rest)

theorem IsNearest.eq {location directory other : Location} {content told : Bytes}
    (nearest : IsNearest disk location directory content)
    (also : IsNearest disk location other told) : directory = other ∧ content = told := by
  have lengths : directory.length = other.length := by
    rcases Nat.lt_trichotomy directory.length other.length with shorter | same | longer
    · have absent := nearest.nearest other also.above shorter
      rw [also.manifest] at absent
      simp at absent
    · exact same
    · have absent := also.nearest directory nearest.above longer
      rw [nearest.manifest] at absent
      simp at absent
  have same : directory = other :=
    (List.prefix_of_prefix_length_le nearest.above also.above (Nat.le_of_eq lengths)).eq_of_length lengths
  refine ⟨same, ?_⟩
  have found := also.manifest
  rw [← same, nearest.manifest] at found
  exact Option.some.inj found

theorem Decides.eq {shown : Text} {location : Location} {answer other : Except ModuleFault Module}
    (decides : Decides disk shown location answer) (also : Decides disk shown location other) :
    answer = other := by
  cases decides with
  | manifest nearest tells =>
      cases also with
      | manifest nearestToo tellsToo =>
          obtain ⟨rfl, rfl⟩ := nearest.eq nearestToo
          exact (tells_iff.mp tells).trans (tells_iff.mp tellsToo).symm
      | nothing none =>
          have absent := none _ nearest.above
          rw [nearest.manifest] at absent
          simp at absent
  | nothing none =>
      cases also with
      | manifest nearestToo _ =>
          have absent := none _ nearestToo.above
          rw [nearestToo.manifest] at absent
          simp at absent
      | nothing _ => rfl

/-! ## The search -/

theorem decides_of_manifestIn? {location : Location} {content : Bytes} (shown : Text)
    (present : manifestIn? disk location = some content) :
    Decides disk shown location
      (ofManifest (shownComponents location) (manifestPath location) content) := by
  refine .manifest ⟨List.prefix_refl location, present, ?_⟩ (tells_iff.mpr rfl)
  intro other above longer
  exact absurd above.length_le (Nat.not_le.mpr longer)

/-- Where no manifest is, the directory above decides. -/
theorem Decides.concat {shown last : Text} {location : Location}
    {answer : Except ModuleFault Module} (decides : Decides disk shown location answer)
    (absent : manifestIn? disk (location ++ [last]) = none) :
    Decides disk shown (location ++ [last]) answer := by
  cases decides with
  | manifest nearest tells =>
      refine .manifest ⟨?_, nearest.manifest, ?_⟩ tells
      · exact nearest.above.trans (List.prefix_append location [last])
      · intro other above longer
        rcases List.prefix_concat_iff.mp above with rfl | higher
        · exact absent
        · exact nearest.nearest other higher longer
  | nothing none =>
      refine .nothing ?_
      intro directory above
      rcases List.prefix_concat_iff.mp above with rfl | higher
      · exact absent
      · exact none directory higher

theorem search_decides (tree : disk.IsTree) (shown : Text) (names : List Text) :
    IsPlace names.reverse → Decides disk shown names.reverse (search disk shown names) := by
  induction names with
  | nil =>
      intro isPlace
      rw [search_nil, show ofDirectory? disk [] = _ from ofDirectory?_eq tree isPlace]
      cases present : manifestIn? disk [] with
      | none =>
          refine .nothing ?_
          intro directory above
          rw [List.prefix_nil.mp above]
          exact present
      | some content => exact decides_of_manifestIn? shown present
  | cons last parents induction =>
      intro isPlace
      have here := ofDirectory?_eq tree isPlace
      rw [search_cons, here]
      cases present : manifestIn? disk (last :: parents).reverse with
      | none =>
          rw [List.reverse_cons] at present isPlace ⊢
          exact (induction (isPlace.of_prefix (List.prefix_append _ _))).concat present
      | some content => exact decides_of_manifestIn? shown present

/-- The module of a directory is what the nearest manifest at or above it tells. -/
theorem decides_find_iff (tree : disk.IsTree) {current start : Text}
    (clean : Disk.holdsNull (Path.join current start) = false)
    {answer : Except ModuleFault Module} :
    Decides disk (Path.tidy start) (place [] (Path.components (Path.join current start))) answer ↔
      answer = find disk current start := by
  have isPlace := isPlace_place clean
  have decides : Decides disk (Path.tidy start)
      (place [] (Path.components (Path.join current start))) (find disk current start) := by
    rw [find, Path.components_resolve, Path.resolveSteps_eq_place]
    have searched := search_decides tree (Path.tidy start)
      (place [] (Path.components (Path.join current start))).reverse
    rw [List.reverse_reverse] at searched
    exact searched isPlace
  constructor
  · exact fun other => other.eq decides
  · rintro rfl
    exact decides

end Module

end Scaffold
