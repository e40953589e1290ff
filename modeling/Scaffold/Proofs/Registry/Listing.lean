import Mathlib.Data.List.Forall2
import Scaffold.Registry
import Scaffold.Proofs.Merge.Clashes
import Scaffold.Proofs.Text.Lines

/-!
# What a registry lists

A registry imports every package but its own under a name that no other of its
imports has, and refers to the package by this name.  The entries are its last
lines, so they are read back from the end, whatever stands before them.
-/

namespace Scaffold

namespace Contract

theorem continuesName_qualify {contract : Contract}
    (word : ∀ character ∈ contract.name, Go.continuesName character = true) {name : Text}
    (added : ∀ character ∈ name, Go.continuesName character = true) :
    ∀ character ∈ contract.qualify name, Go.continuesName character = true := by
  intro character member
  unfold qualify at member
  split at member
  · exact added character member
  · rcases List.mem_append.mp member with short | own
    · unfold shortName at short
      split at short
      · exact word character (List.mem_of_mem_take short)
      · exact word character short
    · exact added character own

end Contract

namespace Registry

open Go (IsWord continuesName)

/-! ## Names of packages -/

variable (resolver : Resolver) (directory : Text)

/-- The registry in a directory refers to the package at a path by a name: its
own package has none, and any other the name of its import. -/
inductive RefersTo (known : List Import) (path name : Text) : Prop where
  | own (here : Path.normalize path = directory) (unnamed : name = [])
  | imported {spec} (elsewhere : Path.normalize path ≠ directory) (listed : spec ∈ known)
      (leads : spec.path = resolver.importPath path) (named : name = spec.referenceName)

variable {resolver directory}

theorem RefersTo.mono {known more : List Import} (wider : ∀ spec ∈ known, spec ∈ more)
    {path name : Text} (refers : RefersTo resolver directory known path name) :
    RefersTo resolver directory more path name := by
  cases refers with
  | own here unnamed => exact .own here unnamed
  | imported elsewhere listed leads named =>
      exact .imported elsewhere (wider _ listed) leads named

section Found

variable {known : List Import} {found : List (Text × Text)}
  (refers : ∀ entry ∈ found, RefersTo resolver directory known entry.1 entry.2) {path : Text}

include refers

theorem refersTo_own (here : Path.normalize path = directory) :
    ∀ entry ∈ found ++ [(path, [])], RefersTo resolver directory known entry.1 entry.2 := by
  intro entry member
  rcases List.mem_append.mp member with old | new
  · exact refers entry old
  · rw [List.mem_singleton.mp new]
    exact .own here rfl

theorem refersTo_imported (elsewhere : Path.normalize path ≠ directory) (declared : Text) :
    ∀ entry ∈ found ++ [(path, (resolver.resolve path declared known).referenceName)],
      RefersTo resolver directory
        (Merge.withImport (resolver.resolve path declared known) known) entry.1 entry.2 := by
  intro entry member
  rcases List.mem_append.mp member with old | new
  · exact (refers entry old).mono fun _ => Merge.mem_withImport_of_mem
  · rw [List.mem_singleton.mp new]
    exact .imported elsewhere (Merge.resolve_mem_withImport path declared)
      (resolver.path_resolve path declared known) rfl

end Found

variable (resolver directory)

/-- No two known imports have one name, all their names can be spelled, and what
was found refers to packages by them. -/
structure IsKnown (known : List Import) (found : List (Text × Text)) : Prop where
  names : (known.map Import.referenceName).Nodup
  words : ∀ spec ∈ known, IsWord spec.referenceName
  refers : ∀ entry ∈ found, RefersTo resolver directory known entry.1 entry.2

variable {resolver directory}

namespace IsKnown

variable {known : List Import} {found : List (Text × Text)}

theorem own (isKnown : IsKnown resolver directory known found) {path : Text}
    (here : Path.normalize path = directory) :
    IsKnown resolver directory known (found ++ [(path, [])]) where
  names := isKnown.names
  words := isKnown.words
  refers := refersTo_own isKnown.refers here

/-- The import of one more package has a name of its own, unless it is known. -/
theorem imported (isKnown : IsKnown resolver directory known found) {path declared : Text}
    (elsewhere : Path.normalize path ≠ directory) (word : IsWord declared) :
    IsKnown resolver directory (Merge.withImport (resolver.resolve path declared known) known)
      (found ++ [(path, (resolver.resolve path declared known).referenceName)]) where
  names := Merge.nodup_referenceName_withImport isKnown.names resolver path declared
  words := by
    have resolved : IsWord (resolver.resolve path declared known).referenceName := by
      rw [Resolver.resolve]
      split
      · rename_i spec found
        exact isKnown.words spec (List.mem_of_find?_eq_some found)
      · exact Resolver.isWord_freshImport _ word known
    intro spec listed
    rcases Merge.eq_or_mem_of_mem_withImport listed with rfl | old
    · exact resolved
    · exact isKnown.words spec old
  refers := refersTo_imported isKnown.refers elsewhere declared

end IsKnown

/-! ## All packages -/

/-- Every package has been found in the end, and so is what was found before. -/
structure Reaches (found : List (Text × Text)) (implementations : List Implementation)
    (last : List (Text × Text)) : Prop where
  kept : ∀ entry ∈ found, entry ∈ last
  all : ∀ implementation ∈ implementations, ∃ name, (implementation.packagePath, name) ∈ last

namespace Reaches

variable {found : List (Text × Text)} {implementation : Implementation}
  {rest : List Implementation} {last : List (Text × Text)}

theorem seen (later : Reaches found rest last)
    (known : ∃ name, (implementation.packagePath, name) ∈ found) :
    Reaches found (implementation :: rest) last where
  kept := later.kept
  all := by
    obtain ⟨name, old⟩ := known
    exact List.forall_mem_cons.mpr ⟨⟨name, later.kept _ old⟩, later.all⟩

theorem added {name : Text}
    (later : Reaches (found ++ [(implementation.packagePath, name)]) rest last) :
    Reaches found (implementation :: rest) last where
  kept entry old := later.kept entry (List.mem_append_left _ old)
  all := (later.seen ⟨name, List.mem_append_right _ List.mem_cons_self⟩).all

end Reaches

/-- What the registry's own package keeps and what the import of any other one
keeps holds in the end, when all packages have been found. -/
theorem references_induction (holds : List Import → List (Text × Text) → Prop)
    (own : ∀ {known found path}, Path.normalize path = directory → holds known found →
      holds known (found ++ [(path, [])]))
    {implementations : List Implementation}
    (imported : ∀ implementation ∈ implementations,
      Path.normalize implementation.packagePath ≠ directory → ∀ {known found}, holds known found →
        let spec := resolver.resolve implementation.packagePath implementation.packageName known
        holds (Merge.withImport spec known)
          (found ++ [(implementation.packagePath, spec.referenceName)])) :
    ∀ {known found}, holds known found →
      let last := references resolver directory known found implementations
      holds last.1 last.2 ∧ Reaches found implementations last.2 := by
  induction implementations with
  | nil => exact fun start => ⟨start, fun _ member => member, by simp⟩
  | cons implementation rest induction =>
      intro known found start
      obtain ⟨first, later⟩ := List.forall_mem_cons.mp imported
      rw [references]
      dsimp only
      split
      · rename_i seen
        obtain ⟨entry, old, key⟩ := List.any_eq_true.mp seen
        exact (induction later start).imp_right
          fun reaches => reaches.seen ⟨entry.2, beq_iff_eq.mp key ▸ old⟩
      · split
        · rename_i here
          exact (induction later (own here start)).imp_right Reaches.added
        · rename_i elsewhere
          exact (induction later (first elsewhere start)).imp_right Reaches.added

variable (resolver directory)

/-- What is known in the end refers to the packages of all implementations, and
to those that were found before. -/
structure AreFound (found : List (Text × Text)) (implementations : List Implementation)
    (last : List Import × List (Text × Text)) : Prop where
  known : IsKnown resolver directory last.1 last.2
  kept : ∀ entry ∈ found, entry ∈ last.2
  all : ∀ implementation ∈ implementations, ∃ name, (implementation.packagePath, name) ∈ last.2

variable {resolver directory}

theorem areFound_references {implementations : List Implementation} {known : List Import}
    {found : List (Text × Text)} (start : IsKnown resolver directory known found)
    (words : ∀ implementation ∈ implementations, IsWord implementation.packageName) :
    AreFound resolver directory found implementations
      (references resolver directory known found implementations) := by
  obtain ⟨isKnown, reaches⟩ := references_induction (IsKnown resolver directory)
    (fun here isKnown => isKnown.own here)
    (fun implementation member elsewhere {_ _} isKnown =>
      isKnown.imported elsewhere (words implementation member)) start
  exact ⟨isKnown, reaches.kept, reaches.all⟩

/-! ## Entries -/

/-- The entry of a registry for the options of the package at a path. -/
inductive Enters (resolver : Resolver) (directory : Text) (known : List Import)
    (path options : Text) : Text → Prop where
  | own (here : Path.normalize path = directory) :
      Enters resolver directory known path options options
  | imported {spec} (elsewhere : Path.normalize path ≠ directory) (listed : spec ∈ known)
      (leads : spec.path = resolver.importPath path) :
      Enters resolver directory known path options (spec.referenceName ++ ['.'] ++ options)

theorem enters_entry {known : List Import} {found : List (Text × Text)}
    (refers : ∀ entry ∈ found, RefersTo resolver directory known entry.1 entry.2)
    (named : ∀ spec ∈ known, spec.referenceName ≠ []) {implementation : Implementation}
    (listed : ∃ name, (implementation.packagePath, name) ∈ found) :
    Enters resolver directory known implementation.packagePath implementation.optionsName
      (entry found implementation) := by
  obtain ⟨name, member⟩ := listed
  have present : (found.find? fun entry => entry.1 == implementation.packagePath).isSome :=
    List.find?_isSome.mpr ⟨_, member, beq_self_eq_true _⟩
  obtain ⟨⟨path, reference⟩, first⟩ := Option.isSome_iff_exists.mp present
  have same : path = implementation.packagePath := by
    simpa using List.find?_some first
  subst same
  have refers : RefersTo resolver directory known implementation.packagePath reference :=
    refers _ (List.mem_of_find?_eq_some first)
  rw [entry, first]
  dsimp only [Option.map_some, Option.getD_some]
  cases refers with
  | own here unnamed =>
      rw [unnamed]
      exact .own here
  | imported elsewhere listed leads reads =>
      rw [reads, if_neg (by simpa using named _ listed)]
      exact .imported elsewhere listed leads

/-- The character ends a line. -/
def IsBreak (character : Char) : Prop :=
  character = '\n' ∨ character = '\r'

/-- An entry, spelled with letters, digits, low lines and dots, stands on one
line. -/
theorem Enters.whole {known : List Import} {path options entry : Text}
    (enters : Enters resolver directory known path options entry)
    (words : ∀ spec ∈ known, IsWord spec.referenceName)
    (own : ∀ character ∈ options, continuesName character = true) {mark : Char}
    (ends : IsBreak mark) : mark ∉ entry := by
  have foreign : continuesName mark = false ∧ mark ≠ '.' := by
    rcases ends with rfl | rfl <;> decide +kernel
  have outside {word : Text} (spelled : ∀ character ∈ word, continuesName character = true) :
      mark ∉ word :=
    fun member => Bool.false_ne_true (foreign.1.symm.trans (spelled mark member))
  cases enters with
  | own here => exact outside own
  | imported elsewhere listed leads =>
      rw [List.mem_append, List.mem_append, List.mem_singleton, not_or, not_or]
      exact ⟨⟨outside (words _ listed).word, foreign.2⟩, outside own⟩

/-! ## Lines of entries -/

/-- The line before the entries. -/
def opening : Text := "var " ++ variableName ++ " = fx.Options("

/-- The line behind the entries. -/
def closing : Text := [')']

/-- The line of an entry. -/
def row (entry : Text) : Text :=
  ['\t'] ++ entry ++ [',']

/-- The lines of the options, each entry on one of them. -/
def rows (entries : List Text) : List Text :=
  opening :: (entries.map row ++ [closing])

theorem optionsLines_eq (found : List (Text × Text)) (sorted : List Implementation) :
    optionsLines found sorted = rows (sorted.map (entry found)) := by
  rw [rows, List.map_map]
  rfl

theorem not_mem_of_mem_rows {mark : Char} (ends : IsBreak mark) {entries : List Text}
    (whole : ∀ entry ∈ entries, mark ∉ entry) : ∀ line ∈ rows entries, mark ∉ line := by
  intro line member
  rcases List.mem_cons.mp member with rfl | later
  · rcases ends with rfl | rfl <;> decide +kernel
  · rcases List.mem_append.mp later with inside | last
    · obtain ⟨entry, known, rfl⟩ := List.mem_map.mp inside
      have own := whole entry known
      rcases ends with rfl | rfl <;> simpa [row] using own
    · rw [List.mem_singleton.mp last]
      rcases ends with rfl | rfl <;> decide

/-- The entries of a registry, read back from its last lines. -/
def listed (text : Text) : List Text :=
  let fromClosing := (Text.splitOn '\n' text).reverse.dropWhile (· ≠ closing)
  (fromClosing.tail.takeWhile (· ≠ opening)).reverse.map fun line => (line.drop 1).dropLast

theorem listed_append (front : Text) {entries : List Text}
    (whole : ∀ entry ∈ entries, '\n' ∉ entry) :
    listed (front ++ '\n' :: Text.ofLines (rows entries)) = entries := by
  have cut : Text.splitOn '\n' (front ++ '\n' :: Text.ofLines (rows entries)) =
      Text.splitOn '\n' front ++ (rows entries ++ [[]]) := by
    rw [Text.splitOn_append, Text.splitOn_ofLines (not_mem_of_mem_rows (.inl rfl) whole)]
  have reversed : (Text.splitOn '\n' front ++ (rows entries ++ [[]])).reverse =
      [] :: closing :: ((entries.map row).reverse ++
        opening :: (Text.splitOn '\n' front).reverse) := by
    simp [rows]
  have inside : ∀ line ∈ (entries.map row).reverse, decide (line ≠ opening) = true := by
    intro line member
    obtain ⟨entry, _, rfl⟩ := List.mem_map.mp (List.mem_reverse.mp member)
    have begins : opening = 'v' :: opening.tail := by rfl
    rw [begins]
    simp [row]
  have inner : (entries.map row).map (fun line => (line.drop 1).dropLast) = entries := by
    simp [row, Function.comp_def]
  unfold listed
  rw [cut, reversed, List.dropWhile_cons_of_pos (by decide),
    List.dropWhile_cons_of_neg (by decide)]
  dsimp only [List.tail_cons]
  rw [List.takeWhile_append_of_pos inside, List.takeWhile_cons_of_neg (by decide),
    List.append_nil, List.reverse_reverse, inner]

/-! ## The text of a registry -/

/-- The lines of a registry, where the names of packages have been found. -/
theorem exists_lines_of_render {current : Text} {packageName? : Option Text}
    {implementations : List Implementation} {rendered : Text}
    (result : render resolver current directory packageName? implementations = .ok rendered)
    {known : List Import} {found : List (Text × Text)}
    (names : references resolver (Path.normalize directory) [libraries.options] []
      (sort implementations) = (known, found)) :
    ∃ (package : Text) (directives : List Directive), rendered = header ++
      Text.ofLines (["package " ++ package, []] ++ directiveLines directives ++
        [ImportBlock.render resolver.module.path [] (known.map fun spec => ⟨spec, []⟩), []] ++
          rows ((sort implementations).map (entry found))) := by
  unfold render at result
  dsimp only at result
  rw [names] at result
  split at result
  · simp at result
  · rename_i directives _
    exact ⟨_, directives, by rw [← Except.ok.inj result, optionsLines_eq]⟩

/-- The text of a registry ends with the lines of its options. -/
theorem exists_front_of_render {current : Text} {implementations : List Implementation}
    {rendered : Text}
    (result : render resolver current directory none implementations = .ok rendered)
    {known : List Import} {found : List (Text × Text)}
    (names : references resolver (Path.normalize directory) [libraries.options] []
      (sort implementations) = (known, found)) :
    ∃ front,
      ImportBlock.render resolver.module.path [] (known.map fun spec => ⟨spec, []⟩) <:+: front ∧
        rendered =
          front ++ '\n' :: Text.ofLines (optionsLines found (sort implementations)) := by
  obtain ⟨package, directives, lines⟩ := exists_lines_of_render result names
  refine ⟨header ++ Text.ofLines (["package " ++ package, []] ++ directiveLines directives ++
    [ImportBlock.render resolver.module.path [] (known.map fun spec => ⟨spec, []⟩)]), ?_, ?_⟩
  · exact (Text.line_within_ofLines (by simp)).trans (List.suffix_append _ _).isInfix
  · rw [lines, optionsLines_eq]
    simp [Text.ofLines]

/-- A registry lists one entry for each implementation, in its order, and refers
to packages by the names of its imports, which differ from each other. -/
theorem listed_of_render {current : Text} {implementations : List Implementation}
    {rendered : Text}
    (packages : ∀ implementation ∈ implementations, IsWord implementation.packageName)
    (contracts : ∀ implementation ∈ implementations,
      ∀ character ∈ implementation.contract.name, continuesName character = true)
    (result : render resolver current directory none implementations = .ok rendered) :
    ∃ known : List Import,
      (known.map Import.referenceName).Nodup ∧
        ImportBlock.render resolver.module.path [] (known.map fun spec => ⟨spec, []⟩) <:+:
          rendered ∧
        List.Forall₂
          (fun implementation =>
            Enters resolver (Path.normalize directory) known implementation.packagePath
              implementation.optionsName)
          (sort implementations) (listed (Text.universalNewlines rendered)) := by
  have start : IsKnown resolver (Path.normalize directory) [libraries.options] [] :=
    ⟨List.nodup_singleton _, by simp [show IsWord libraries.options.referenceName from
      ⟨by decide +kernel, List.all_eq_true.mp (by decide +kernel)⟩], by simp⟩
  have member {implementation : Implementation} (inside : implementation ∈ sort implementations) :
      implementation ∈ implementations := (Sorting.mem_sort _).mp inside
  have all := areFound_references start fun implementation inside =>
    packages implementation (member inside)
  obtain ⟨⟨known, found⟩, names⟩ : ∃ last, references resolver (Path.normalize directory)
    [libraries.options] [] (sort implementations) = last := ⟨_, rfl⟩
  rw [names] at all
  obtain ⟨front, block, rfl⟩ := exists_front_of_render result names
  have enters : ∀ implementation ∈ sort implementations,
      Enters resolver (Path.normalize directory) known implementation.packagePath
        implementation.optionsName (entry found implementation) :=
    fun implementation inside => enters_entry all.known.refers
      (fun spec listed => (all.known.words spec listed).named) (all.all implementation inside)
  have whole {mark : Char} (ends : IsBreak mark) :
      ∀ line ∈ (sort implementations).map (entry found), mark ∉ line := by
    intro line listed
    obtain ⟨implementation, inside, rfl⟩ := List.mem_map.mp listed
    exact (enters implementation inside).whole all.known.words
      (Contract.continuesName_qualify (contracts implementation (member inside))
        (List.all_eq_true.mp (by decide +kernel))) ends
  refine ⟨known, all.known.names, block.trans (List.prefix_append _ _).isInfix, ?_⟩
  obtain ⟨before, lines⟩ := Text.exists_universalNewlines_append front
    (Text.ofLines (optionsLines found (sort implementations)))
  rw [optionsLines_eq] at lines ⊢
  have returns : '\r' ∉ Text.ofLines (rows ((sort implementations).map (entry found))) :=
    Text.not_mem_ofLines (by decide) (not_mem_of_mem_rows (.inr rfl) (whole (.inr rfl)))
  rw [lines, Text.universalNewlines_of_not_mem returns, listed_append before (whole (.inl rfl)),
    List.forall₂_map_right_iff]
  exact List.forall₂_same.mpr enters

end Registry

end Scaffold
